/-!
# Comments

A configuration text may hold comments: from two slashes to the end of the line, and between a
slash with a star and a star with a slash. Inside quotes nothing is a comment, and a backslash
there keeps a quote from ending the quotes. What stands in a comment is removed, but every line
feed is kept, so that the lines of the text keep their numbers.
-/

namespace AgentSession.Comments

/-- Where in the text one is. -/
inductive Place where
  | plain
  | quotes
  | line
  /-- In a comment that ends with a star and a slash; `star` tells whether a star was just read. -/
  | block (star : Bool)
deriving DecidableEq, Repr

/-- The text without its comments, from a place on. -/
def stripFrom : Place → List Char → List Char
  | _, [] => []
  | .plain, '/' :: '/' :: rest => stripFrom .line rest
  | .plain, '/' :: '*' :: rest => stripFrom (.block false) rest
  | .plain, c :: rest => c :: stripFrom (if c = '"' then .quotes else .plain) rest
  | .quotes, '\\' :: c :: rest => '\\' :: c :: stripFrom .quotes rest
  | .quotes, c :: rest => c :: stripFrom (if c = '"' then .plain else .quotes) rest
  | .line, c :: rest => if c = '\n' then c :: stripFrom .plain rest else stripFrom .line rest
  | .block star, c :: rest =>
    if star = true ∧ c = '/' then stripFrom .plain rest
    else if c = '\n' then c :: stripFrom (.block false) rest
    else stripFrom (.block (c = '*')) rest

def strip (text : List Char) : List Char := stripFrom .plain text

example : strip ['1', '/', '*', '\n', '*', '/', '2'] = ['1', '\n', '2'] := by decide
example : strip ['"', '/', '/', '"'] = ['"', '/', '/', '"'] := by decide

end AgentSession.Comments
