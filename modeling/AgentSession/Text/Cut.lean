/-!
# Cutting and replacing

Cuts of a text at a character, and the replacement of every occurrence of a word.
-/

namespace AgentSession.Text

/-- The texts before and after the first occurrence of `sep`, if there is one. -/
def splitFirst (sep : Char) : List Char → Option (List Char × List Char)
  | [] => none
  | c :: rest =>
    if c = sep then some ([], rest)
    else (splitFirst sep rest).map fun halves ↦ (c :: halves.1, halves.2)

/-- The texts between the occurrences of `sep`; there is always at least one. -/
def splitAll (sep : Char) : List Char → List (List Char)
  | [] => [[]]
  | c :: rest =>
    if c = sep then [] :: splitAll sep rest
    else match splitAll sep rest with
      | [] => [[c]]
      | piece :: pieces => (c :: piece) :: pieces

/-- Replaces the occurrences of `word` after passing over the next `skip` characters, which
belong to an occurrence that was replaced already. -/
def replaceFrom (word value : List Char) : Nat → List Char → List Char
  | _, [] => []
  | skip + 1, _ :: rest => replaceFrom word value skip rest
  | 0, c :: rest =>
    if word.isPrefixOf (c :: rest) then value ++ replaceFrom word value (word.length - 1) rest
    else c :: replaceFrom word value 0 rest

/-- A text in which every occurrence of a non-empty word, from left to right and without
overlaps, is replaced by `value`. -/
def replaceAll (word value text : List Char) : List Char :=
  replaceFrom word value 0 text

example : replaceAll ['a', 'a'] ['b'] ['a', 'a', 'a', 'c'] = ['b', 'a', 'c'] := by decide

end AgentSession.Text
