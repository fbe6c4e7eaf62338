/-
# BorderSync.Text.Blank -- white space, trimming and plain ASCII case

White space here is the Unicode `White_Space` property, which is wider than the ASCII blanks that
`Char.isWhitespace` knows. Texts are handled as lists of characters, so that each operation is one
recursion over the data; the `String` forms at the end only wrap them.
-/

namespace BorderSync.Text

/-- A character with the Unicode property `White_Space`. -/
def isBlank (c : Char) : Bool :=
  (9 ≤ c.toNat && c.toNat ≤ 13) || c.toNat == 0x20 || c.toNat == 0x85 || c.toNat == 0xa0
    || c.toNat == 0x1680 || (0x2000 ≤ c.toNat && c.toNat ≤ 0x200a)
    || c.toNat == 0x2028 || c.toNat == 0x2029 || c.toNat == 0x202f || c.toNat == 0x205f
    || c.toNat == 0x3000

/-- Drop from the end every character that satisfies `p`. -/
def dropEndWhile (p : Char → Bool) (s : List Char) : List Char :=
  (s.reverse.dropWhile p).reverse

/-- Drop white space from both ends. -/
def trimChars (s : List Char) : List Char :=
  dropEndWhile isBlank (s.dropWhile isBlank)

/-- Cut at every occurrence of `sep`; the pieces, joined by `sep` again, give the text back. -/
def splitOnChar (sep : Char) : List Char → List (List Char)
  | [] => [[]]
  | c :: rest =>
    if c = sep then [] :: splitOnChar sep rest
    else
      match splitOnChar sep rest with
      | [] => [[c]]
      | piece :: pieces => (c :: piece) :: pieces

/-- The lower case of an ASCII letter; any other character stays as it is. -/
def lowerAscii (c : Char) : Char :=
  if 'A' ≤ c ∧ c ≤ 'Z' then Char.ofNat (c.toNat + 32) else c

/-- `trimChars` on strings. -/
def trim (s : String) : String :=
  String.ofList (trimChars s.toList)

/-- `lowerAscii` on every character. -/
def lower (s : String) : String :=
  String.ofList (s.toList.map lowerAscii)

/-- If `s` begins with `lead`, what follows it. -/
def stripLead? : (lead s : List Char) → Option (List Char)
  | [], s => some s
  | _ :: _, [] => none
  | l :: lead, c :: s => if l = c then stripLead? lead s else none

/-- The only text that `stripLead?` accepts with rest `r` is `lead` followed by `r`. -/
theorem stripLead?_eq_some_iff {lead s r : List Char} :
    stripLead? lead s = some r ↔ s = lead ++ r := by
  induction lead generalizing s with
  | nil => simp [stripLead?]
  | cons l lead ih =>
    cases s with
    | nil => simp [stripLead?]
    | cons c s =>
      by_cases h : l = c
      · simp [stripLead?, h, ih]
      · simp [stripLead?, h]
        intro hc
        exact absurd hc.symm h

end BorderSync.Text
