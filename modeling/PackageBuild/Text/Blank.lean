/-!
# Blank text

Settings, overrides and signals come from people and scripts, who leave blanks around them. This
module says which characters are blank and what is left of a text once they are trimmed.
-/

namespace PackageBuild
namespace Text

/-- The characters with the Unicode property `White_Space`. -/
def isBlank (c : Char) : Bool :=
  let n := c.toNat
  (9 ≤ n && n ≤ 13) || n == 0x20 || n == 0x85 || n == 0xA0 || n == 0x1680 ||
    (0x2000 ≤ n && n ≤ 0x200A) || n == 0x2028 || n == 0x2029 || n == 0x202F || n == 0x205F ||
    n == 0x3000

/-- The characters that remain once the blanks at both ends are gone. -/
def trimmed (cs : List Char) : List Char :=
  ((cs.dropWhile isBlank).reverse.dropWhile isBlank).reverse

/-- A text without the blanks at its two ends. -/
def trim (text : String) : String :=
  String.ofList (trimmed text.toList)

/-- Whether a text holds no character other than blanks; the empty text is blank. -/
def blank (text : String) : Bool :=
  text.toList.all isBlank

@[simp]
theorem trimmed_nil : trimmed [] = [] := rfl

@[simp]
theorem toList_trim (text : String) : (trim text).toList = trimmed text.toList := by
  simp [trim]

end Text
end PackageBuild
