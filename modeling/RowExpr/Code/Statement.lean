import RowExpr.Code.Term

/-!
Statements of generated code and their lines. A block is a list of statements;
the lines of a nested block are indented by four blanks.
-/

namespace RowExpr

inductive Statement where
  /-- `const x: type = value;` -/
  | declare (x : Name) (type : Option Text) (value : Term)
  /-- `let x: type;` -/
  | reserve (x : Name) (type : Text)
  | assign (x : Name) (value : Term)
  | branch (test : Term) (yes no : List Statement)
  /-- Assigns a term to a name, or runs `otherwise` if the term fails. -/
  | attempt (x : Name) (value : Term) (otherwise : List Statement)

abbrev Block := List Statement

/-- Lines of a nested block. -/
def Block.indent (lines : List Text) : List Text := lines.map (("    " : Text) ++ ·)

def Block.assignment (x : Name) (value : Term) : Text := x.text ++ " = " ++ value.toText ++ ";"

mutual

def Statement.lines : Statement → List Text
  | .declare x none value => [("const " : Text) ++ x.text ++ " = " ++ value.toText ++ ";"]
  | .declare x (some type) value =>
    [("const " : Text) ++ x.text ++ ": " ++ type ++ " = " ++ value.toText ++ ";"]
  | .reserve x type => [("let " : Text) ++ x.text ++ ": " ++ type ++ ";"]
  | .assign x value => [Block.assignment x value]
  | .branch test yes no =>
    (("if (" : Text) ++ test.toText ++ ") \x7b") ::
      (Block.indent (Block.lines yes) ++ ("\x7d else \x7b" : Text) ::
        (Block.indent (Block.lines no) ++ [("\x7d" : Text)]))
  | .attempt x value otherwise =>
    ("try \x7b" : Text) ::
      (Block.indent [Block.assignment x value] ++ ("\x7d catch \x7b" : Text) ::
        (Block.indent (Block.lines otherwise) ++ [("\x7d" : Text)]))

def Block.lines : Block → List Text
  | [] => []
  | s :: rest => s.lines ++ Block.lines rest

end

/-- The text of a block: its lines, each ended by a line feed. -/
def Block.text (b : Block) : Text := b.lines.flatMap (· ++ [Text.lineFeed])

end RowExpr
