import RowExpr.Calendar.Offsets
import RowExpr.Proofs.Absence
import RowExpr.Proofs.Code.Identifier
import RowExpr.Proofs.Code.Lines

/-!
The source of a query.

Texts from outside stand in a source as literals and members; names of inputs and of the zone are
checked before. None of them can break a line, so the source of every query, cut at its line
feeds, has the lines of the declarations, of the initialising statements and of the code in it, in
order and each with its indentation, and nothing else but the frame of a unit
(`Query.texts_cannot_break_source`).
-/

namespace RowExpr

/-! ## Inputs and zones -/

/-- The name of an input is an identifier, with no dollar sign in it. -/
theorem Input.isIdentifier_name {name : Text} (identifier : Input.isIdentifier name = true) :
    Name.isIdentifier name = true := by
  cases name with
  | nil => cases identifier
  | cons u rest =>
    rw [Input.isIdentifier, Bool.and_eq_true, List.all_eq_true] at identifier
    rw [Name.isIdentifier, Bool.and_eq_true, List.all_eq_true]
    refine ⟨?_, fun v listed => ?_⟩
    · rw [identifier.1, Bool.true_or]
    · rw [identifier.2 v listed, Bool.true_or]

/-- No zone that options accept is broken into lines. -/
theorem TimeZones.unbroken_of_accepts [TimeZones] {zone : Text}
    (accepted : TimeZones.accepts zone = true) : zone.Unbroken := by
  have visible := TimeZones.printable zone accepted
  constructor
  · exact fun feed => absurd (visible _ feed) (by decide)
  · exact fun ended => absurd (visible _ ended) (by decide)

/-- A time zone that is accepted has no line break in it, so it cannot end the line that sets it.
-/
theorem Options.unbroken_of_timeZoneOf [TimeZones] {given : OptionValue} {zone : Text}
    (read : Options.timeZoneOf given = .ok zone) : zone.Unbroken := by
  unfold Options.timeZoneOf at read
  split at read
  · cases read
    decide
  · split at read
    · next accepted =>
      cases read
      exact TimeZones.unbroken_of_accepts accepted
    · cases read
  · cases read

/-- Nor has the one that options come with, which may be the default. -/
theorem Options.unbroken_of_ofMembers [TimeZones] {ms : List (Text × OptionValue)}
    {options : Options} (read : Options.ofMembers ms = .ok options) :
    options.timeZone.Unbroken := by
  unfold Options.ofMembers at read
  dsimp only at read
  split at read
  · cases read
  · split at read
    · next zone _ =>
      cases read
      exact Options.unbroken_of_timeZoneOf zone
    · cases read

/-- The zone of options that were read is not broken into lines. -/
theorem Options.unbroken_timeZone [TimeZones] {given : GivenOptions} {options : Options}
    (resolved : Options.resolve given = .ok options) : options.timeZone.Unbroken := by
  unfold Options.resolve at resolved
  split at resolved
  · exact Options.unbroken_of_ofMembers resolved
  · split at resolved
    any_goals exact Options.unbroken_of_ofMembers resolved
    cases resolved

/-! ## Units -/

/-- The lines of a unit: its frame, and in it the members, the initialising statements and the
lines of the code, set in by blanks. -/
def UnitParts.framed (inputs members inits code : List Text) (returns : Text) : List Text :=
  [("export function createEvaluator(runtime: any) \x7b" : Text)] ++
    Text.setIn 4 members ++ Text.setIn 4 inits ++
    [("    return function evaluate(" : Text) ++
      Text.join ", " (inputs.map (· ++ ": any")) ++ ") \x7b"] ++
    Text.setIn 8 code ++
    [("        return " : Text) ++ returns ++ ";", ("    \x7d;" : Text), ("\x7d" : Text)]

/-- A margin does not break lines. -/
theorem Text.oneLine_setIn {blanks : Nat} {lines : List Text}
    (code : ∀ line ∈ lines, Text.IsLine line) :
    ∀ line ∈ Text.setIn blanks lines, line.OneLine := by
  intro line listed
  obtain ⟨inner, inside, rfl⟩ := List.mem_map.1 listed
  have margin : Text.OneLine (List.replicate blanks 32) :=
    Text.oneLine_of_all (· == 32)
      (fun u listed => beq_iff_eq.2 (List.eq_of_mem_replicate listed)) rfl
  exact Text.oneLine_append.2 ⟨margin, (code inner inside).one⟩

section Units

variable {u : GeneratedUnit} (members : ∀ t ∈ u.registry.memberTexts, t.IsLine)
  (inits : ∀ t ∈ u.registry.initTexts, t.IsLine) (body : u.body.Tidy)

include members inits body

/-- The source of a unit is a fixed frame with the lines of its parts in it. -/
theorem GeneratedUnit.sourceLines_eq :
    u.parts.sourceLines = UnitParts.framed u.inputs u.registry.memberTexts u.registry.initTexts
      (Block.lines u.body) u.returns.text := by
  unfold UnitParts.sourceLines GeneratedUnit.parts Block.text
  dsimp only
  rw [UnitParts.indent_join members, UnitParts.indent_join inits, UnitParts.indent_ended body]
  rfl

/-- A unit made of lines has these lines, and ends with a line feed. -/
theorem GeneratedUnit.lines_source (inputs : ∀ name ∈ u.inputs, name.OneLine)
    (returns : u.returns.text.OneLine) :
    u.source.lines = UnitParts.framed u.inputs u.registry.memberTexts u.registry.initTexts
      (Block.lines u.body) u.returns.text ++ [[]] := by
  have named : Text.OneLine (Text.join ", " (u.inputs.map (· ++ ": any"))) := by
    refine Text.oneLine_join (by decide) (List.forall_mem_map.2 fun name listed => ?_)
    exact Text.oneLine_append.2 ⟨inputs name listed, by decide⟩
  unfold GeneratedUnit.source UnitParts.source
  rw [GeneratedUnit.sourceLines_eq members inits body,
    Text.join_feed (by simp [UnitParts.framed])]
  have signature : Text.OneLine
      (("    return function evaluate(" : Text) ++ Text.join ", " (u.inputs.map (· ++ ": any")) ++
        ") \x7b") := by
    simp [named]
  have returned : Text.OneLine (("        return " : Text) ++ u.returns.text ++ ";") := by
    simp [returns]
  refine Text.lines_ended ?_
  unfold UnitParts.framed
  simp only [List.forall_mem_append, List.forall_mem_singleton, List.forall_mem_cons]
  exact ⟨⟨⟨⟨⟨by decide, Text.oneLine_setIn members⟩, Text.oneLine_setIn inits⟩, signature⟩,
    Text.oneLine_setIn body⟩, returned, by decide, by decide⟩

end Units

/-! ## Literals and members -/

/-- How a member of a record is accessed: after a point if its name is an identifier, and else
by a literal of the name in brackets. -/
inductive Text.Accesses (field : Text) : Text → Prop
  | dotted : Name.isIdentifier field = true → Text.Accesses field (("." : Text) ++ field)
  | bracketed {token : Text} : Name.isIdentifier field = false → token.IsLiteralOf field →
    Text.Accesses field (("[" : Text) ++ token ++ "]")

/-- The text of an access is one of the two forms, by whether the name is an identifier. -/
theorem Term.accesses_memberText (field : Text) :
    Text.Accesses field (Term.memberText field) := by
  unfold Term.memberText
  split
  · next identifier => exact .dotted identifier
  · next other => exact .bracketed (Bool.eq_false_iff.2 other) field.isLiteralOf_quoted

/-- What is written after a record to read a field of it. -/
inductive Accessor.Written : Accessor → Text → Prop
  | index (i : Nat) : Accessor.Written (.index i) (("[" : Text) ++ Text.ofNat i ++ "]")
  | method {name access : Text} : Text.Accesses name access →
    Accessor.Written (.method name) (access ++ "()")
  | member {name access : Text} : Text.Accesses name access →
    Accessor.Written (.member name) access

/-- The term that reads a field names the input, reaches the field and gives it a type. -/
theorem Accessor.toText_term (a : Accessor) (input mark : Text) :
    ∃ access, a.Written access ∧
      (a.term (.plain input) mark).toText = ("(" : Text) ++ input ++ access ++ " as " ++
        mark ++ ")" := by
  cases a with
  | index i =>
    refine ⟨_, .index i, ?_⟩
    simp [Accessor.term, Name.text]
  | method name =>
    refine ⟨_, .method (Term.accesses_memberText name), ?_⟩
    simp [Accessor.term, Name.text]
  | member name =>
    refine ⟨_, .member (Term.accesses_memberText name), ?_⟩
    simp [Accessor.term, Name.text]

/-- The line that declares the value of a node. -/
def Text.declaring (x mark value : Text) : Text :=
  ("const " : Text) ++ x ++ ": " ++ mark ++ " = " ++ value ++ ";"

/-- A declaration of a block is one of its lines. -/
theorem Block.declaring_mem_lines {x : Name} {mark : Text} {value : Term} (before after : Block) :
    Text.declaring x.text mark value.toText ∈
      Block.lines (before ++ .declare x (some mark) value :: after) := by
  rw [Block.lines_append, Block.lines, Statement.lines]
  exact List.mem_append_right _ (List.mem_append_left _ List.mem_cons_self)

section Leaves

variable {s : Setting} {n m : Nat} {g : Generated} {ds : List Declaration}

/-- The code of a text has a line that declares the quoted text. -/
theorem Setting.Emits.literal_line {t : Text} {type : Ty}
    (emits : s.Emits (.literal (.text t) type) n g m ds) :
    ∃ x, Text.declaring x "string" t.quoted ∈ Block.lines g.code := by
  cases emits with
  | literal present found made =>
    unfold Literal.term? at found
    split at found
    any_goals contradiction
    next same =>
      cases same
      cases found
      obtain ⟨rfl, -, -⟩ := Gen.yields_pure.1 made
      exact ⟨_, Block.declaring_mem_lines _ []⟩

/-- The code of a field has a line that reads it from an input. -/
theorem Setting.Emits.field_line {name : Text} {type : Ty}
    (emits : s.Emits (.field name type) n g m ds) :
    ∃ x, ∃ input ∈ s.inputs, ∃ a access, input.type.accessor? name = some a ∧ a.Written access ∧
      Text.declaring x type.typeMark
        (("(" : Text) ++ input.name ++ access ++ " as " ++ type.typeMark ++ ")") ∈
        Block.lines g.code := by
  cases emits with
  | field found =>
    unfold Setting.fieldTerm? at found
    split at found
    · next input first =>
      obtain ⟨a, stored, rfl⟩ := Option.map_eq_some_iff.1 found
      obtain ⟨access, written, text⟩ := a.toText_term input.name type.typeMark
      refine ⟨(Name.result n).text, input, List.mem_of_find?_eq_some first, a, access,
        stored, written, ?_⟩
      rw [← text]
      exact Block.declaring_mem_lines [] _
    · cases found

end Leaves

/-! ## Lists of expressions -/

section Lists

variable {s : Setting} {es : List Expr} {gs : List Generated} {n m : Nat} {ds : List Declaration}
  (emits : s.EmitsAll es n gs m ds)

include emits

theorem Setting.EmitsAll.tidy (inputs : ∀ input ∈ s.inputs, input.name.OneLine)
    (terms : ∀ type, (s.defaults type).toText.OneLine) :
    Block.Tidy (gs.flatMap Generated.code) := by
  induction emits with
  | nil => exact Block.tidy_nil
  | cons first _ ih => exact Block.tidy_append.2 ⟨first.tidy inputs terms, ih⟩

theorem Setting.EmitsAll.oneLine_names :
    ∀ g ∈ gs, (Term.name g.isNull).toText.OneLine ∧ (Term.name g.result).toText.OneLine := by
  induction emits with
  | nil => exact fun _ listed => absurd listed List.not_mem_nil
  | cons first _ ih => exact List.forall_mem_cons.2 ⟨first.oneLine_names, ih⟩

/-- The lines of every node are among those of the codes. -/
theorem Setting.EmitsAll.node_lines {e node : Expr} (listed : e ∈ es) (inside : node ∈ e.nodes) :
    ∃ k c k' ds', s.Emits node k c k' ds' ∧
      Block.lines c.code ⊆ Block.lines (gs.flatMap Generated.code) := by
  obtain ⟨before, c, after, k, k', ds', place, emitsNode, -⟩ := emits.houses listed inside
  refine ⟨k, c, k', ds', emitsNode, ?_⟩
  rw [place, Block.lines_append, Block.lines_append]
  exact List.subset_append_of_subset_right _ (List.subset_append_left _ _)

end Lists

theorem Block.text_flatMap (gs : List Generated) :
    (gs.flatMap fun g => Block.text g.code) = Block.text (gs.flatMap Generated.code) := by
  induction gs with
  | nil => rfl
  | cons g gs ih =>
    rw [List.flatMap_cons, List.flatMap_cons, ih, Block.text, Block.text, Block.text,
      Block.lines_append, List.flatMap_append]

/-! ## Sessions -/

/-- The lines that a session writes for expressions: those of the codes, one after the other.
Every text in the expressions stands on one of them as a literal of it, and every field is read on
one of them. -/
structure Session.Writes (s : Session) (es : List Expr) (gs : List Generated) (code : List Text) :
    Prop where
  lines : Text.lines (gs.flatMap fun g => Block.text g.code) = code ++ [[]]
  literal : ∀ e ∈ es, ∀ t type, .literal (.text t) type ∈ e.nodes →
    ∃ x token, token.IsLiteralOf t ∧ Text.declaring x "string" token ∈ code
  field : ∀ e ∈ es, ∀ name type, .field name type ∈ e.nodes →
    ∃ x, ∃ input ∈ s.inputs, ∃ a access, input.type.accessor? name = some a ∧ a.Written access ∧
      Text.declaring x type.typeMark
        (("(" : Text) ++ input.name ++ access ++ " as " ++ type.typeMark ++ ")") ∈ code

section Created

variable [TimeZones] {inputs : List Input} {given : GivenOptions} {new : Session}
  (created : Session.create inputs given = .ok new) {es : List Expr} {gs : List Generated}
  (compiled : (new.compileAll es).1.outcome = .ok gs)

include created

/-- The inputs of a session are checked to be identifiers, so their names are one line. -/
theorem Session.oneLine_input : ∀ input ∈ new.inputs, input.name.OneLine := by
  rw [(Session.of_createWith created).1]
  intro input listed
  exact Name.oneLine_of_isIdentifier
    (Input.isIdentifier_name (Session.fine_of_createWith created input listed).1)

/-- A new session has the usual terms for absent values. -/
theorem Session.oneLine_default (type : Ty) : (new.defaults type).toText.OneLine := by
  rw [(Session.of_createWith created).2.2]
  exact type.oneLine_defaultTerm

include compiled

/-- What a new session compiles is tidy, whatever texts and fields the expressions have. -/
theorem Session.tidy_compileAll : Block.Tidy (gs.flatMap Generated.code) := by
  obtain ⟨-, m, ds, emits, -⟩ := (Session.sound_createWith created).compileAll compiled
  exact emits.tidy (Session.oneLine_input created) (Session.oneLine_default created)

/-- The lines of the code hold every text and every field of the expressions. -/
theorem Session.writes_compileAll :
    new.Writes es gs (Block.lines (gs.flatMap Generated.code)) := by
  obtain ⟨-, m, ds, emits, -⟩ := (Session.sound_createWith created).compileAll compiled
  refine ⟨?_, fun e listed t type inside => ?_, fun e listed name type inside => ?_⟩
  · have tidy := Session.tidy_compileAll created compiled
    rw [Block.text_flatMap]
    exact Text.lines_ended fun line listed => (tidy line listed).one
  · obtain ⟨k, c, k', ds', emitsNode, sub⟩ := emits.node_lines listed inside
    obtain ⟨x, written⟩ := emitsNode.literal_line
    exact ⟨x, t.quoted, t.isLiteralOf_quoted, sub written⟩
  · obtain ⟨k, c, k', ds', emitsNode, sub⟩ := emits.node_lines listed inside
    obtain ⟨x, input, known, a, access, stored, reads, written⟩ := emitsNode.field_line
    exact ⟨x, input, known, a, access, stored, reads, sub written⟩

/-- The source of a unit that a session makes of the codes of expressions. -/
theorem Session.lines_unit {returns : Returned} (one : returns.text.OneLine) :
    ((new.compileAll es).2.unit gs returns).source.lines =
      UnitParts.framed (inputs.map Input.name) (new.compileAll es).2.registry.memberTexts
        (new.compileAll es).2.registry.initTexts (Block.lines (gs.flatMap Generated.code))
          returns.text ++ [[]] := by
  have sound := Session.sound_createWith created
  obtain ⟨sameInputs, resolved, -⟩ := Session.of_createWith created
  obtain ⟨grows, m, ds, -, covers⟩ := sound.compileAll compiled
  obtain ⟨known, lists, -⟩ := covers
  have zone : (new.compileAll es).2.registry.zone.OneLine := by
    rw [(sound.grows grows).zone, grows.options]
    exact (Options.unbroken_timeZone resolved).1
  obtain ⟨members, inits⟩ := lists.isLine zone
  have names : ((new.compileAll es).2.inputs.map Input.name) = inputs.map Input.name := by
    rw [grows.inputs, sameInputs]
  have oneNames : ∀ name ∈ (new.compileAll es).2.inputs.map Input.name, name.OneLine := by
    rw [grows.inputs]
    exact List.forall_mem_map.2 (Session.oneLine_input created)
  have framed :=
    GeneratedUnit.lines_source (u := (new.compileAll es).2.unit gs returns) members inits
    (Session.tidy_compileAll created compiled) oneNames one
  rw [← names]
  exact framed

/-- What a projection returns is one line. -/
theorem Session.oneLine_projected (s : Session) :
    (Returned.text (.list (gs.map s.projected))).OneLine := by
  obtain ⟨-, m, ds, emits, -⟩ := (Session.sound_createWith created).compileAll compiled
  have each : ∀ t ∈ (gs.map s.projected).map Term.toText, t.OneLine := by
    refine List.forall_mem_map.2 (List.forall_mem_map.2 fun g made => ?_)
    obtain ⟨flag, result⟩ := emits.oneLine_names g made
    unfold Session.projected
    split
    · simp only [Term.toText] at flag result
      simp [flag, result]
    · exact result
  unfold Returned.text
  exact Text.oneLine_append.2
    ⟨Text.oneLine_append.2 ⟨by decide, Text.oneLine_join (by decide) each⟩, by decide⟩

theorem Session.oneLine_accepted (s : Session) {g : Generated} (made : g ∈ gs) :
    (Returned.text (.term (s.accepted g))).OneLine := by
  obtain ⟨-, m, ds, emits, -⟩ := (Session.sound_createWith created).compileAll compiled
  obtain ⟨flag, result⟩ := emits.oneLine_names g made
  simp only [Term.toText] at flag result
  unfold Returned.text Session.accepted
  dsimp only
  split <;> simp [flag, result]

end Created

/-! ## Queries -/

/-- The source of a query of expressions. Cut at its line feeds it has the lines of the frame of a
unit. Between them, set in by blanks, come the members and the initialising statements that a new
session declares for the expressions, and the lines of the code that it writes for them. -/
def Query.KeepsLines [TimeZones] (q : Query) (inputs : List Input) (given : GivenOptions)
    (es : List Expr) : Prop :=
  ∃ new gs code returned, Session.create inputs given = .ok new ∧
    (new.compileAll es).1.outcome = .ok gs ∧
    new.Writes es gs code ∧
    q.source.lines = UnitParts.framed (inputs.map Input.name)
      (new.compileAll es).2.registry.memberTexts
      (new.compileAll es).2.registry.initTexts code returned ++ [[]]

/-- A query keeps the source that it was loaded from. -/
theorem Query.source_of_load [TimeZones] {sink : Sink} {u : GeneratedUnit} {q : Query}
    (loaded : (Query.load sink u).outcome = .ok q) : q.source = u.source := by
  obtain ⟨evaluator, -, done⟩ := Report.of_bind_eq_ok loaded
  cases done
  rfl

/-- A query that is loaded from the unit of what a session has compiled. -/
theorem Query.keepsLines_of_load [TimeZones] {inputs : List Input} {given : GivenOptions}
    {new : Session} {es : List Expr} {gs : List Generated} {returns : Returned} {sink : Sink}
    {q : Query} (created : Session.create inputs given = .ok new)
    (compiled : (new.compileAll es).1.outcome = .ok gs) (one : returns.text.OneLine)
    (loaded : (Query.load sink ((new.compileAll es).2.unit gs returns)).outcome = .ok q) :
    q.KeepsLines inputs given es := by
  refine ⟨new, gs, _, returns.text, created, compiled,
    Session.writes_compileAll created compiled, ?_⟩
  rw [Query.source_of_load loaded]
  exact Session.lines_unit created compiled one

/-- The source of a projection has the lines of its expressions. -/
theorem Query.keepsLines_projection [TimeZones] {inputs : List Input} {given : GivenOptions}
    {es : List Expr} {q : Query} (built : (Query.projection inputs es given).outcome = .ok q) :
    q.KeepsLines inputs given es := by
  obtain ⟨new, gs, sink, created, compiled, loaded⟩ := Query.steps_of_projectionWith built
  exact Query.keepsLines_of_load created compiled
    (Session.oneLine_projected created compiled _) loaded

/-- The source of a filter has the lines of its condition. -/
theorem Query.keepsLines_filter [TimeZones] {inputs : List Input} {given : GivenOptions}
    {e : Expr} {q : Query} (built : (Query.filter inputs e given).outcome = .ok q) :
    q.KeepsLines inputs given [e] := by
  obtain ⟨new, g, sink, created, compiled, loaded⟩ := Query.steps_of_filterWith built
  exact Query.keepsLines_of_load created compiled
    (Session.oneLine_accepted created compiled _ List.mem_cons_self) loaded

/-- Texts from outside cannot break a source. Every text is written as one literal of it, and
every member that has no identifier as its name by one literal of the name. So the source of every
projection and of every filter keeps the lines of its declarations and of its code. -/
theorem Query.texts_cannot_break_source [TimeZones] (inputs : List Input) (given : GivenOptions) :
    (∀ t, (Term.text t).toText.IsLiteralOf t) ∧
    (∀ field, Text.Accesses field (Term.memberText field)) ∧
    (∀ es q, (Query.projection inputs es given).outcome = .ok q → q.KeepsLines inputs given es) ∧
    ∀ e q, (Query.filter inputs e given).outcome = .ok q → q.KeepsLines inputs given [e] :=
  ⟨Text.isLiteralOf_quoted, Term.accesses_memberText, fun _ _ => Query.keepsLines_projection,
    fun _ _ => Query.keepsLines_filter⟩

/-- A surrogate without its partner, a quote, a line feed and a backslash. -/
def Text.hostile : Text := 0xD800 :: ("\"\n\\" : Text)

/-- Records with a member of that name. -/
def Input.hostile : List Input := [⟨"row", .plain .pojo [.mk Text.hostile .string]⟩]

section Host

open scoped Offsets

/-- The text as a literal and as the name of a field: both queries keep their lines. -/
theorem Query.texts_cannot_break_source_hostile :
    ∃ p q : Query,
      (Query.projection Input.hostile
        [.literal (.text Text.hostile) .string, .field Text.hostile .string]
        (.members [])).outcome = .ok p ∧
      p.KeepsLines Input.hostile (.members [])
        [.literal (.text Text.hostile) .string, .field Text.hostile .string] ∧
      (Query.filter Input.hostile (.isNull (.field Text.hostile .string) .boolean)
        (.members [])).outcome = .ok q ∧
      q.KeepsLines Input.hostile (.members []) [.isNull (.field Text.hostile .string) .boolean] ∧
      Text.hostile.quoted.IsLiteralOf Text.hostile ∧ Text.hostile.quoted =
        ("\"\\ud800\\\"\\n\\\\\"" : Text) ∧
      p.source.lines.length = 10 := by
  obtain ⟨literals, -, projections, filters⟩ :=
    Query.texts_cannot_break_source Input.hostile (.members [])
  have projected : (Query.projection Input.hostile
      [.literal (.text Text.hostile) .string, .field Text.hostile .string]
        (.members [])).outcome = .ok _ := rfl
  have filtered : (Query.filter Input.hostile (.isNull (.field Text.hostile .string) .boolean)
      (.members [])).outcome = .ok _ := rfl
  exact ⟨_, _, projected, projections _ _ projected, filtered, filters _ _ filtered,
    literals Text.hostile, by decide, by decide +kernel⟩

end Host

end RowExpr
