/-!
# Comparing without regard to ASCII case

`foldAscii` lowers the letters `A` to `Z` and nothing else, so `É` and `é` stay different.
-/

namespace SqlScript.Text

def foldAscii (c : Char) : Char :=
  if 'A' ≤ c ∧ c ≤ 'Z' then Char.ofNat (c.toNat + 32) else c

def sameIgnoringCase (a b : List Char) : Bool :=
  a.map foldAscii == b.map foldAscii

/-- The rest of the text after `token`, if it starts with it up to the case of ASCII letters. -/
def dropIgnoringCase : (token text : List Char) → Option (List Char)
  | [], rest => some rest
  | _ :: _, [] => none
  | t :: token, c :: rest =>
    if foldAscii t == foldAscii c then dropIgnoringCase token rest else none

end SqlScript.Text
