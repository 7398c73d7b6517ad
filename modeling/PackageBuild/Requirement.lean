import PackageBuild.Failure
/-!
# Requirements

A requirement names a library and a version, and may qualify the version by a channel. It is
written `name/version` or `name/version@user/channel`. A package requires every library at most
once and keeps the order in which its requirements were declared.
-/

namespace PackageBuild

/-- The namespace that qualifies the version of a requirement. -/
structure Channel where
  /-- Who publishes the channel. -/
  user : String
  channel : String
deriving DecidableEq, Repr

namespace Channel

def display (c : Channel) : String := c.user ++ "/" ++ c.channel

end Channel

/-- A library in some version. -/
structure Requirement where
  name : String
  version : String
  channel : Option Channel
deriving DecidableEq, Repr

namespace Requirement

/-- The characters that the parts of a requirement are made of. -/
def isPartChar (c : Char) : Bool :=
  c.isAlphanum || c == '_' || c == '-' || c == '.' || c == '+'

/-- Whether a text can be a part of a requirement. -/
def isPart (text : String) : Bool :=
  !text.toList.isEmpty && text.toList.all isPartChar

def display (r : Requirement) : String :=
  r.name ++ "/" ++ r.version ++
    match r.channel with
    | some channel => "@" ++ channel.display
    | none => ""

/-- What a text can lack to be a requirement. -/
inductive Fault where
  /-- There is no slash between a name and a version. -/
  | form
  /-- The name is empty or has a character that no part has. -/
  | name
  /-- The version is empty or has a character that no part has. -/
  | version
  /-- There is no slash in what follows the at sign. -/
  | channelForm
  /-- A part of the channel is empty or has a character that no part has. -/
  | channel
deriving DecidableEq, Repr

def Fault.reason : Fault → String
  | .form => "expected `name/version`"
  | .name => "empty or malformed name"
  | .version => "empty or malformed version"
  | .channelForm => "expected `@user/channel`"
  | .channel => "empty or malformed channel"

/-- The channel written after an at sign. -/
def readChannel (text : String) : Except Fault Channel :=
  match Text.cut '/' text with
  | none => .error .channelForm
  | some (user, channel) =>
    if isPart user && isPart channel then .ok ⟨user, channel⟩ else .error .channel

/-- The name and version written before an at sign. -/
def readReference (text : String) : Except Fault (String × String) :=
  match Text.cut '/' text with
  | none => .error .form
  | some (name, version) =>
    if !isPart name then .error .name
    else if !isPart version then .error .version
    else .ok (name, version)

/-- The requirement a text stands for, or the first fault of the text. -/
def read (text : String) : Except Fault Requirement :=
  match Text.cut '@' text with
  | none => do
    let (name, version) ← readReference text
    return ⟨name, version, none⟩
  | some (reference, rest) => do
    let (name, version) ← readReference reference
    let channel ← readChannel rest
    return ⟨name, version, some channel⟩

def parse (text : String) : Except RecipeError Requirement :=
  (read text).mapError fun fault => .invalidRequirement text fault.reason

end Requirement

/-- Requirements in order of declaration, each for another library. -/
structure Requirements where
  toList : List Requirement
  /-- No library is required twice. -/
  nodup : (toList.map Requirement.name).Nodup

namespace Requirements

/-- The first requirement that repeats the library of one of `seen`, with that one. -/
def firstRepeat (seen : List Requirement) : List Requirement → Option (Requirement × Requirement)
  | [] => none
  | r :: rest =>
    match seen.find? (·.name = r.name) with
    | some earlier => some (earlier, r)
    | none => firstRepeat (seen ++ [r]) rest

/-- A requirement that repeats none of some others may stand behind them. -/
theorem nodup_concat {seen : List Requirement} {r : Requirement}
    (distinct : (seen.map Requirement.name).Nodup) (fresh : seen.find? (·.name = r.name) = none) :
    ((seen ++ [r]).map Requirement.name).Nodup := by
  rw [List.map_append, List.map_singleton]
  refine List.nodup_append.2 ⟨distinct, by simp, ?_⟩
  intro name hname other hother
  obtain ⟨s, hs, rfl⟩ := List.mem_map.1 hname
  rw [List.mem_singleton.1 hother]
  simpa using List.find?_eq_none.1 fresh s hs

theorem nodup_of_firstRepeat_eq_none {rest : List Requirement} :
    ∀ {seen : List Requirement}, (seen.map Requirement.name).Nodup →
      firstRepeat seen rest = none → ((seen ++ rest).map Requirement.name).Nodup := by
  induction rest with
  | nil => intro seen hseen _; simpa using hseen
  | cons r rest ih =>
    intro seen hseen h
    unfold firstRepeat at h
    split at h
    · simp at h
    · rename_i hfind
      have := ih (nodup_concat hseen hfind) h
      rwa [List.append_assoc, List.singleton_append] at this

/-- The requirements of a list, unless two of them name the same library. -/
def ofList (requirements : List Requirement) : Except RecipeError Requirements :=
  match h : firstRepeat [] requirements with
  | some (earlier, later) =>
    .error (.duplicateRequirement later.name earlier.display later.display)
  | none => .ok ⟨requirements, by simpa using nodup_of_firstRepeat_eq_none (by simp) h⟩

def get? (name : String) (rs : Requirements) : Option Requirement :=
  rs.toList.find? (·.name = name)

end Requirements
end PackageBuild
