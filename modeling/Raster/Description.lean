/-!
# Descriptions

A description says in text what a value is made of: a word, a name with its parts in
parentheses, or a name with named parts in braces. It has two layouts, one on a single
line (`compact`) and one with a line for each part (`indented`), in which every part is
indented by four spaces and ended by a comma.

A record may be left open: it then says by two dots that it has parts which are not
shown.
-/

namespace Raster

/-- What a value is made of. -/
inductive Description
  | word (text : String)
  | tuple (name : String) (parts : List Description)
  /-- A name and named parts; an open record has parts that are not shown. -/
  | record (name : String) (parts : List (String × Description)) (isOpen : Bool)

namespace Description

def nat (n : Nat) : Description := .word (toString n)

def bool (b : Bool) : Description := .word (if b then "true" else "false")

def quoted (text : String) : Description := .word ("\"" ++ text ++ "\"")

/-- A record that shows all its parts. -/
def closed (name : String) (parts : List (String × Description)) : Description :=
  .record name parts false

def optional (d : Option Description) : Description :=
  match d with
  | none => .word "None"
  | some d => .tuple "Some" [d]

/-! ### On one line -/

mutual
/-- The description on a single line. -/
def compact : Description → String
  | .word text => text
  | .tuple name parts => name ++ "(" ++ ", ".intercalate (compactParts parts) ++ ")"
  | .record name parts isOpen =>
      let dots := if isOpen then [".."] else []
      name ++ " \x7b " ++ ", ".intercalate (compactFields parts ++ dots) ++ " \x7d"
def compactParts : List Description → List String
  | [] => []
  | d :: ds => d.compact :: compactParts ds
def compactFields : List (String × Description) → List String
  | [] => []
  | (name, d) :: ds => (name ++ ": " ++ d.compact) :: compactFields ds
end

/-! ### With a line for each part -/

/-- The lines of a part: `label` in front of the first, a comma after the last, and all
of them indented. -/
def indentPart (label : String) : List String → List String
  | [] => []
  | [line] => ["    " ++ label ++ line ++ ","]
  | line :: rest => ("    " ++ label ++ line) :: indentPart "" rest

mutual
/-- The lines of the description. -/
def lines : Description → List String
  | .word text => [text]
  | .tuple name parts => (name ++ "(") :: (linesOfParts parts ++ [")"])
  | .record name parts isOpen =>
      let dots := if isOpen then ["    .."] else []
      (name ++ " \x7b") :: (linesOfFields parts ++ dots ++ ["\x7d"])
def linesOfParts : List Description → List String
  | [] => []
  | d :: ds => indentPart "" d.lines ++ linesOfParts ds
def linesOfFields : List (String × Description) → List String
  | [] => []
  | (name, d) :: ds => indentPart (name ++ ": ") d.lines ++ linesOfFields ds
end

/-- The description with a line for each part. -/
def indented (d : Description) : String := "\n".intercalate d.lines

end Description

end Raster
