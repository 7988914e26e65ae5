import RowExpr.Options
import RowExpr.Proofs.Code.Registry
import RowExpr.Proofs.Session

/-!
Identifiers: the texts of names.

The inputs, the numbered names, the constants of times and the formatters are named in
four ways that never meet. A numbered name and the constant of a time have a dollar
sign, which no input has; they differ in what stands before it. The formatters have
none, but an input must not have their names (`Input.ne_text`).
-/

namespace RowExpr

/-- The stems of the numbered names in generated code. -/
def Name.stems : List Text := ["isNull", "result", "parsed"]

/-- The mark between the stem of a numbered name and its number. -/
abbrev Text.dollar : UInt16 := 36

/-! ## Numbered names and constants -/

/-- A number is set off from the stem by a dollar sign. -/
theorem Name.text_fresh (stem : Text) (k : Nat) :
    (Name.fresh stem k).text = stem ++ Text.dollar :: Text.ofNat k := by
  rw [Name.text, List.append_assoc]
  rfl

theorem Name.text_dateConstant_dollar (t : Time) :
    (Name.dateConstant t).text = ("date" : Text) ++ Text.dollar :: t.tag := by
  rw [Name.text_dateConstant]
  rfl

theorem Name.dollar_mem_fresh (stem : Text) (k : Nat) :
    Text.dollar ∈ (Name.fresh stem k).text := by
  rw [Name.text_fresh]
  exact List.mem_append_right _ List.mem_cons_self

theorem Name.dollar_mem_dateConstant (t : Time) : Text.dollar ∈ (Name.dateConstant t).text := by
  rw [Name.text_dateConstant_dollar]
  exact List.mem_append_right _ List.mem_cons_self

/-- Formatters have no number, so their names have no dollar sign. -/
theorem Name.dollar_not_mem_formatter (k : FormatterKind) :
    Text.dollar ∉ (Name.formatter k).text := by
  cases k <;> decide

/-- What stands before the last mark and what stands after it are determined by the whole. -/
theorem Text.eq_of_append_last_mark {s t rest rest' : Text} {mark : UInt16} (left : mark ∉ rest)
    (right : mark ∉ rest') (same : s ++ mark :: rest = t ++ mark :: rest') :
    s = t ∧ rest = rest' := by
  -- Read backwards, the last mark is the first.
  have turned : rest.reverse ++ mark :: s.reverse = rest'.reverse ++ mark :: t.reverse := by
    simpa using congrArg List.reverse same
  have after : rest.reverse = rest'.reverse :=
    Text.eq_of_append_mark (mt List.mem_reverse.1 left) (mt List.mem_reverse.1 right) turned
  obtain rfl := List.reverse_injective after
  exact ⟨List.append_cancel_right same, rfl⟩

/-- Numbered names are told apart by their texts, whatever their stems are: no numeral has a
dollar sign, so the last one ends the stem. -/
theorem Name.fresh_text_injective {stem stem' : Text} {k k' : Nat}
    (same : (Name.fresh stem k).text = (Name.fresh stem' k').text) :
    Name.fresh stem k = Name.fresh stem' k' := by
  rw [Name.text_fresh, Name.text_fresh] at same
  obtain ⟨rfl, numerals⟩ :=
    Text.eq_of_append_last_mark (Text.not_mem_ofNat rfl) (Text.not_mem_ofNat rfl) same
  rw [Text.ofNat_injective numerals]

/-- No numbered name is that of a declaration, as long as its stem is not `date`. -/
theorem Name.fresh_text_ne_declaration {stem : Text} {k : Nat} (plain : Text.dollar ∉ stem)
    (other : stem ≠ "date") (d : Declaration) : (Name.fresh stem k).text ≠ d.name.text := by
  intro same
  cases d with
  | formatter kind =>
    exact Name.dollar_not_mem_formatter kind (same ▸ Name.dollar_mem_fresh stem k)
  | dateConstant t =>
    rw [Declaration.name, Name.text_fresh, Name.text_dateConstant_dollar] at same
    exact other (Text.eq_of_append_mark plain (by decide) same)

/-! ## Names of inputs -/

/-- What a unit refers to from outside: the run time that its factory is given, and what
every program can refer to. -/
def Name.surroundings : List Text :=
  ["runtime", "Math", "String", "Date", "undefined", "NaN", "Infinity"]

/-- No input has a dollar sign in its name, unlike what is numbered. -/
theorem Input.dollar_not_mem {name : Text} (identifier : Input.isIdentifier name = true) :
    Text.dollar ∉ name := by
  cases name with
  | nil => exact List.not_mem_nil
  | cons u rest =>
    rw [Input.isIdentifier, Bool.and_eq_true, List.all_eq_true] at identifier
    intro inside
    rcases List.mem_cons.1 inside with rfl | inside
    · exact absurd identifier.1 (by decide)
    · exact absurd (identifier.2 _ inside) (by decide)

/-- The names of formatters are refused as names of inputs. -/
theorem Input.isReserved_formatter (k : FormatterKind) :
    Input.isReserved (Name.formatter k).text = true := by
  cases k <;> decide

/-- So is everything that a unit refers to from outside. -/
theorem Input.isReserved_of_mem_surroundings {t : Text} (listed : t ∈ Name.surroundings) :
    Input.isReserved t = true := by
  have all : ∀ t ∈ Name.surroundings, Input.isReserved t = true := by decide
  exact all t listed

/-- The name of an input is that of nothing else in a unit. -/
theorem Input.ne_text {name : Text} (identifier : Input.isIdentifier name = true)
    (free : Input.isReserved name = false) {x : Name} (made : ∀ t, x ≠ .plain t) :
    x.text ≠ name := by
  rintro rfl
  cases x with
  | fresh stem k => exact Input.dollar_not_mem identifier (Name.dollar_mem_fresh stem k)
  | dateConstant t => exact Input.dollar_not_mem identifier (Name.dollar_mem_dateConstant t)
  | formatter k =>
    rw [Input.isReserved_formatter] at free
    cases free
  | plain t => exact made t rfl

/-- An input hides nothing that a unit refers to from outside. -/
theorem Input.not_mem_surroundings {name : Text} (free : Input.isReserved name = false) :
    name ∉ Name.surroundings := by
  intro listed
  rw [Input.isReserved_of_mem_surroundings listed] at free
  cases free

/-- The check of inputs goes through all of them, whatever has been seen before. -/
theorem Input.fine_of_checkAfter {seen names : List Text}
    (checked : Input.checkAfter seen names = .ok ()) :
    ∀ name ∈ names, Input.isIdentifier name = true ∧ Input.isReserved name = false := by
  induction names generalizing seen with
  | nil => exact fun _ listed => absurd listed List.not_mem_nil
  | cons head names ih =>
    rw [Input.checkAfter] at checked
    split at checked
    · cases checked
    · next fine =>
      intro name listed
      obtain ⟨identifier, free, -⟩ := Input.of_problem?_eq_none fine
      rcases List.mem_cons.1 listed with rfl | listed
      · exact ⟨identifier, free⟩
      · exact ih checked name listed

/-- The inputs of a session that was created have names of the right form. -/
theorem Session.fine_of_createWith [TimeZones] {defaults : Ty → Term} {inputs : List Input}
    {given : GivenOptions} {s : Session}
    (created : Session.createWith defaults inputs given = .ok s) :
    ∀ input ∈ inputs, Input.isIdentifier input.name = true ∧
      Input.isReserved input.name = false := by
  intro input listed
  exact Input.fine_of_checkAfter (Session.check_of_createWith created)
    _ (List.mem_map_of_mem listed)

/-! ## All names of a unit -/

/-- The names that a unit can use, if its inputs are these. -/
inductive Name.Usable (inputs : List Input) : Name → Prop
  | input {input : Input} : input ∈ inputs → Name.Usable inputs (.plain input.name)
  | declaration (d : Declaration) : Name.Usable inputs d.name
  | numbered {stem : Text} {k : Nat} : stem ∈ Name.stems → Name.Usable inputs (.fresh stem k)

/-- No declaration has the kind of name that inputs have. -/
theorem Declaration.name_ne_plain (d : Declaration) (t : Text) : d.name ≠ .plain t := by
  cases d <;> exact Name.noConfusion

/-- The stems of numbered names are told from that of dates, and have no dollar sign. -/
theorem Name.stems_plain {stem : Text} (listed : stem ∈ Name.stems) :
    Text.dollar ∉ stem ∧ stem ≠ "date" := by
  have all : ∀ stem ∈ Name.stems, Text.dollar ∉ stem ∧ stem ≠ "date" := by decide
  exact all stem listed

section Usable

variable {inputs : List Input}
  (fine : ∀ input ∈ inputs, Input.isIdentifier input.name = true ∧
    Input.isReserved input.name = false)

include fine

/-- No name that generation makes is spelt like an input. -/
theorem Input.text_ne_of_mem {input : Input} (listed : input ∈ inputs) {x : Name}
    (made : ∀ t, x ≠ .plain t) : x.text ≠ input.name :=
  Input.ne_text (fine input listed).1 (fine input listed).2 made

/-- In a unit whose inputs have names of the right form, names are told apart by their texts. -/
theorem Name.Usable.eq_of_text {x y : Name} (left : x.Usable inputs) (right : y.Usable inputs)
    (same : x.text = y.text) : x = y := by
  cases left with
  | input listed =>
    cases right with
    | input listed' => rw [show Input.name _ = Input.name _ from same]
    | declaration d => exact absurd same.symm (Input.text_ne_of_mem fine listed d.name_ne_plain)
    | numbered _ =>
      exact absurd same.symm (Input.text_ne_of_mem fine listed fun _ => Name.noConfusion)
  | declaration d =>
    cases right with
    | input listed => exact absurd same (Input.text_ne_of_mem fine listed d.name_ne_plain)
    | declaration d' => rw [Declaration.name_text_injective same]
    | numbered known =>
      obtain ⟨plain, other⟩ := Name.stems_plain known
      exact absurd same.symm (Name.fresh_text_ne_declaration plain other d)
  | numbered known =>
    obtain ⟨plain, other⟩ := Name.stems_plain known
    cases right with
    | input listed =>
      exact absurd same (Input.text_ne_of_mem fine listed fun _ => Name.noConfusion)
    | declaration d => exact absurd same (Name.fresh_text_ne_declaration plain other d)
    | numbered _ => exact Name.fresh_text_injective same

end Usable

end RowExpr
