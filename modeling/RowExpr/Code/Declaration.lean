import RowExpr.Code.Statement

/-!
Declarations of a unit: the members that its factory declares and the statements
that initialise them. A registry keeps each in the order in which it was first
added, and never twice with the same text.
-/

namespace RowExpr

/-- What generated code can ask a unit to declare. -/
inductive Declaration where
  | formatter (k : FormatterKind)
  | dateConstant (t : Time)
deriving DecidableEq

/-- The name that a declaration introduces. -/
def Declaration.name : Declaration → Name
  | .formatter k => .formatter k
  | .dateConstant t => .dateConstant t

/-- A member of a unit: a declaration, or a statement given as text. -/
inductive Member where
  | declared (d : Declaration)
  | verbatim (t : Text)
deriving DecidableEq

/-- An initialising statement: it sets the zone of a formatter, or is given as text. -/
inductive Init where
  | setZone (k : FormatterKind)
  | verbatim (t : Text)
deriving DecidableEq

def Declaration.text : Declaration → Text
  | .formatter k =>
    ("const " : Text) ++ (Name.formatter k).text ++ " = runtime.createFormatter(" ++
      k.pattern.singleQuoted ++ ");"
  | .dateConstant t =>
    ("const " : Text) ++ (Name.dateConstant t).text ++ " = new Date(" ++ t.toDouble.text ++ ");"

def Member.text : Member → Text
  | .declared d => d.text
  | .verbatim t => t

/-- The text of an initialising statement in a unit whose zone is `zone`. -/
def Init.text (zone : Text) : Init → Text
  | .setZone k => (Name.formatter k).text ++ ".setTimeZone(" ++ zone.singleQuoted ++ ");"
  | .verbatim t => t

/-- The members and initialising statements of a unit, and the zone of its formatters. -/
structure Registry where
  zone : Text
  members : List Member
  inits : List Init

def Registry.empty (zone : Text) : Registry := ⟨zone, [], []⟩

def Registry.memberTexts (r : Registry) : List Text := r.members.map Member.text

def Registry.initTexts (r : Registry) : List Text := r.inits.map (Init.text r.zone)

/-- Adds a member, unless one of the same text is there. -/
def Registry.addMember (r : Registry) (m : Member) : Registry :=
  if m.text ∈ r.memberTexts then r else { r with members := r.members ++ [m] }

/-- Adds an initialising statement, unless one of the same text is there. -/
def Registry.addInit (r : Registry) (i : Init) : Registry :=
  if i.text r.zone ∈ r.initTexts then r else { r with inits := r.inits ++ [i] }

/-- Makes sure that the unit declares what is asked for; a formatter is also given its zone. -/
def Registry.ensure (r : Registry) : Declaration → Registry
  | .formatter k => (r.addMember (.declared (.formatter k))).addInit (.setZone k)
  | .dateConstant t => r.addMember (.declared (.dateConstant t))

def Registry.ensureAll (r : Registry) (ds : List Declaration) : Registry := ds.foldl ensure r

/-- The members in text, each on a line of its own. -/
def Registry.memberCode (r : Registry) : Text := r.memberTexts.flatMap (· ++ [Text.lineFeed])

/-- The initialising statements in text, each on a line of its own. -/
def Registry.initCode (r : Registry) : Text := r.initTexts.flatMap (· ++ [Text.lineFeed])

end RowExpr
