import RowExpr.Proofs.Generation.Simulation
import RowExpr.Proofs.Renaming
import RowExpr.Proofs.Unit.Lexing

/-!
Access to the fields of a composite.

The field names of a composite that can be built differ, so names and positions determine each
other (`Composite.Built.index?_iff`). However many renamings a composite has, its field is the one
at the same position of the composite below them all (`Composite.Built.resolves`), and no two
fields are stored at one place (`Composite.Built.accessor?_injective`).

Nor are two places written alike, whatever the names are (`Accessor.suffix_injective`). A position
begins with a bracket and a digit, a member with a point or with a bracket and a quote. A method
ends with a parenthesis, and no member does.
-/

namespace RowExpr

/-! ## Positions -/

section Positions

variable {c : Composite} {name : Text} {i : Nat}

/-- Names and positions determine each other. -/
theorem Composite.Built.index?_iff (built : c.Built) :
    c.index? name = some i ↔ c.names[i]? = some name :=
  ⟨Composite.names_of_index?, Composite.index?_of_getElem? built.nodup_names⟩

/-- A name is found where a field has it, with the type of that field. -/
theorem Composite.field_of_index? (found : c.index? name = some i) :
    ∃ type, c.fields[i]? = some (.mk name type) ∧ c.fieldType? name = some type := by
  have listed := Composite.names_of_index? found
  rw [Composite.names, List.getElem?_map] at listed
  obtain ⟨⟨label, type⟩, here, rfl⟩ := Option.map_eq_some_iff.1 listed
  refine ⟨type, here, ?_⟩
  rw [Composite.fieldType?_of_index? found, here]
  rfl

/-- The type and the position of a field are found together. -/
theorem Composite.isSome_fieldType? : (c.fieldType? name).isSome = c.hasField name := by
  rw [Composite.fieldType?, Composite.hasField, Composite.index?, Composite.names,
    List.findIdx?_map, List.findIdx?_isSome, Option.isSome_map, List.isSome_find?]
  rfl

/-- A field is stored somewhere exactly if the composite has it. -/
theorem Composite.isSome_accessor? : (c.accessor? name).isSome = c.hasField name := by
  cases has : c.hasField name with
  | true =>
    obtain ⟨a, stored⟩ := Composite.exists_accessor? has
    rw [stored, Option.isSome_some]
  | false => rw [Composite.accessor?_eq_none has, Option.isSome_none]

end Positions

/-! ## Renamings -/

/-- The composite below all renamings. -/
def Composite.innermost : Composite → Composite
  | .renaming underlying _ => underlying.innermost
  | .plain layout fields => .plain layout fields

/-- The field of a composite that is found at a position is one of the composite below all
renamings, where it has a name of its own: stored as the layout there says, and of the same
type. -/
structure Composite.Resolves (c : Composite) (name : Text) (i : Nat) (layout : Layout)
    (fields : List Field) (own : Text) : Prop where
  innermost : c.innermost = .plain layout fields
  found : c.innermost.index? own = some i
  stored : c.accessor? name = some (layout.accessor i own)
  type : c.fieldType? name = c.innermost.fieldType? own

section Renamings

variable {c : Composite} {name : Text} {i : Nat}

/-- Without renamings, a field is found under its own name. -/
theorem Composite.resolves_plain {layout : Layout} {fields : List Field}
    (found : (Composite.plain layout fields).index? name = some i) :
    (Composite.plain layout fields).Resolves name i layout fields name := by
  refine ⟨rfl, found, ?_, rfl⟩
  rw [Composite.accessor?, found, Option.map_some]

/-- In a composite that can be built, every name leads through the renamings to a field. -/
theorem Composite.Built.resolves (built : c.Built) (found : c.index? name = some i) :
    ∃ layout fields own, c.Resolves name i layout fields own := by
  -- Each renaming hands the field down under the name that stands at its position below.
  induction built generalizing name with
  | plain made =>
    obtain ⟨rfl, -⟩ := Composite.of_checkNames made
    exact ⟨_, _, name, Composite.resolves_plain found⟩
  | tuple made =>
    obtain ⟨rfl, -⟩ := Composite.of_checkNames made
    exact ⟨_, _, name, Composite.resolves_plain found⟩
  | @renamed underlying aliases c below made ih =>
    obtain ⟨rfl, -, -⟩ := Composite.of_renaming? made
    obtain ⟨type, -, declared⟩ := Composite.field_of_index? found
    have typed := Composite.fieldType?_renaming found declared
    obtain ⟨⟨inner, type⟩, here, rfl⟩ := Option.map_eq_some_iff.1 typed
    have listed : underlying.names[i]? = some inner := by
      rw [Composite.names, List.getElem?_map, here]
      rfl
    have foundBelow := below.index?_iff.2 listed
    obtain ⟨layout, fields, own, resolves⟩ := ih foundBelow
    refine ⟨layout, fields, own, resolves.innermost, resolves.found, ?_, ?_⟩
    · rw [Composite.accessor?, found]
      simp only [listed]
      exact resolves.stored
    · rw [declared, ← typed, ← Composite.fieldType?_of_index? foundBelow]
      exact resolves.type

/-- A layout gives different fields different places. -/
theorem Layout.accessor_injective {layout : Layout} {fields : List Field} {j : Nat}
    {own own' : Text} (found : (Composite.plain layout fields).index? own = some i)
    (found' : (Composite.plain layout fields).index? own' = some j)
    (same : layout.accessor i own = layout.accessor j own') : i = j := by
  have ofNames (equal : own = own') : i = j := by
    rw [equal, found'] at found
    exact (Option.some.inj found).symm
  cases layout with
  | row => exact Accessor.index.inj same
  | caseClass => exact ofNames (Accessor.method.inj same)
  | tuple => exact ofNames (Accessor.member.inj same)
  | pojo => exact ofNames (Accessor.member.inj same)

/-- Fields of different names are stored at different places. -/
theorem Composite.Built.accessor?_injective (built : c.Built) {name' : Text} {a : Accessor}
    (stored : c.accessor? name = some a) (stored' : c.accessor? name' = some a) :
    name = name' := by
  have position {name : Text} (stored : c.accessor? name = some a) :
      ∃ i, c.index? name = some i := by
    refine Option.isSome_iff_exists.1 ?_
    rw [← Composite.hasField, ← Composite.isSome_accessor?, stored, Option.isSome_some]
  obtain ⟨i, found⟩ := position stored
  obtain ⟨j, found'⟩ := position stored'
  obtain ⟨layout, fields, own, resolves⟩ := built.resolves found
  obtain ⟨layout', fields', own', resolves'⟩ := built.resolves found'
  have below := resolves.found
  have below' := resolves'.found
  obtain ⟨rfl, rfl⟩ := Composite.plain.inj (resolves.innermost.symm.trans resolves'.innermost)
  rw [resolves.innermost] at below below'
  have places : layout.accessor i own = layout.accessor j own' := by
    rw [← Option.some_inj, ← resolves.stored, ← resolves'.stored, stored, stored']
  obtain rfl := Layout.accessor_injective below below' places
  rw [← Option.some_inj, ← Composite.names_of_index? found, Composite.names_of_index? found']

end Renamings

/-! ## Texts -/

/-- Quoting loses nothing. -/
theorem Text.quoted_injective {s t : Text} (same : s.quoted = t.quoted) : s = t := by
  have read : Token.first? (s.quoted ++ []) = some (.text s, []) := Token.first?_quoted s
  rw [same, Token.first?_quoted] at read
  cases read
  rfl

section Members

variable {name name' : Text}

theorem Term.memberText_identifier (identifier : Name.isIdentifier name = true) :
    Term.memberText name = 46 :: name := by
  rw [Term.memberText, if_pos identifier]
  rfl

theorem Term.memberText_quoted (other : Name.isIdentifier name = false) :
    Term.memberText name = 91 :: (name.quoted ++ [93]) := by
  rw [Term.memberText, if_neg (ne_true_of_eq_false other)]
  rfl

/-- The text of an access tells the name, in either of its forms. -/
theorem Term.memberText_injective (same : Term.memberText name = Term.memberText name') :
    name = name' := by
  cases identifier : Name.isIdentifier name <;> cases identifier' : Name.isIdentifier name'
  · rw [Term.memberText_quoted identifier, Term.memberText_quoted identifier'] at same
    exact Text.quoted_injective (List.append_cancel_right (List.cons.inj same).2)
  · rw [Term.memberText_quoted identifier, Term.memberText_identifier identifier'] at same
    exact absurd (List.cons.inj same).1 (by decide)
  · rw [Term.memberText_identifier identifier, Term.memberText_quoted identifier'] at same
    exact absurd (List.cons.inj same).1 (by decide)
  · rw [Term.memberText_identifier identifier, Term.memberText_identifier identifier'] at same
    exact (List.cons.inj same).2

/-- The text of a member ends with a unit of its name or with a bracket. -/
theorem Term.memberText_ends (name : Text) :
    ∃ front last, Term.memberText name = front ++ [last] ∧ last ≠ 41 := by
  cases identifier : Name.isIdentifier name with
  | false => exact ⟨91 :: name.quoted, 93, Term.memberText_quoted identifier, by decide⟩
  | true =>
    obtain ⟨u, tail, rfl, -, units⟩ := Token.word_of_isIdentifier identifier
    have some : u :: tail ≠ [] := List.cons_ne_nil u tail
    refine ⟨46 :: (u :: tail).dropLast, (u :: tail).getLast some, ?_, ?_⟩
    · rw [Term.memberText_identifier identifier, List.cons_append, List.dropLast_append_getLast]
    · intro closing
      have unit := units _ (List.getLast_mem some)
      rw [closing] at unit
      exact absurd unit (by decide)

/-- The text of a member does not begin as that of a position does. -/
theorem Term.memberText_begins (name : Text) {digit : UInt16}
    (isDigit : Text.isDigit digit = true) (rest rest' : Text) :
    Term.memberText name ++ rest ≠ 91 :: digit :: rest' := by
  intro same
  cases identifier : Name.isIdentifier name with
  | true =>
    rw [Term.memberText_identifier identifier] at same
    exact absurd (List.cons.inj same).1 (by decide)
  | false =>
    rw [Term.memberText_quoted identifier] at same
    obtain rfl := (List.cons.inj (List.cons.inj same).2).1
    exact absurd isDigit (by decide)

end Members

/-- What stands after a record in the text that reads one of its fields. -/
def Accessor.suffix : Accessor → Text
  | .index i => ("[" : Text) ++ Text.ofNat i ++ "]"
  | .method name => Term.memberText name ++ "()"
  | .member name => Term.memberText name

theorem Accessor.toText_term_suffix (a : Accessor) (input : Name) (mark : Text) :
    (a.term input mark).toText = ("(" : Text) ++
      (input.text ++ a.suffix ++ " as " ++ mark) ++ ")" := by
  cases a <;> simp only [Accessor.term, Accessor.suffix, Term.toText, List.append_assoc]

/-- A position is written as digits in brackets. -/
theorem Accessor.suffix_index (i : Nat) :
    ∃ digit rest, (Accessor.index i).suffix = 91 :: digit :: rest ∧
      Text.isDigit digit = true := by
  obtain ⟨digit, rest, numeral⟩ := List.exists_cons_of_ne_nil (Text.ofNat_ne_nil i)
  refine ⟨digit, rest ++ [93], ?_, Text.isDigit_of_mem_ofNat (numeral ▸ List.mem_cons_self)⟩
  rw [Accessor.suffix, numeral]
  rfl

/-- No access by position is written like one by name: what follows the bracket is a digit, not a
quotation mark. -/
theorem Accessor.suffix_index_ne (i : Nat) (name rest : Text) :
    (Accessor.index i).suffix ≠ Term.memberText name ++ rest := by
  obtain ⟨digit, tail, begins, isDigit⟩ := Accessor.suffix_index i
  rw [begins]
  exact (Term.memberText_begins name isDigit rest tail).symm

/-- The parentheses of a call tell a method from a member. -/
theorem Accessor.suffix_method_ne (name name' : Text) :
    (Accessor.method name).suffix ≠ (Accessor.member name').suffix := by
  intro same
  obtain ⟨front, last, ends, other⟩ := Term.memberText_ends name'
  have closing : (Accessor.method name).suffix = (Term.memberText name ++ [40]) ++ [41] := by
    rw [List.append_assoc]
    rfl
  rw [closing, Accessor.suffix, ends] at same
  exact other (List.append_singleton_inj.1 same).2.symm

/-- Places that differ are written differently. -/
theorem Accessor.suffix_injective {a a' : Accessor} (same : a.suffix = a'.suffix) : a = a' := by
  have member (name : Text) : (Accessor.member name).suffix = Term.memberText name ++ [] :=
    (List.append_nil _).symm
  cases a with
  | index i =>
    cases a' with
    | index j =>
      have numerals := List.append_cancel_left (List.append_cancel_right same)
      rw [Text.ofNat_injective numerals]
    | method name' => exact absurd same (Accessor.suffix_index_ne i name' "()")
    | member name' =>
      exact absurd (same.trans (member name')) (Accessor.suffix_index_ne i name' [])
  | method name =>
    cases a' with
    | index j => exact absurd same.symm (Accessor.suffix_index_ne j name "()")
    | method name' => rw [Term.memberText_injective (List.append_cancel_right same)]
    | member name' => exact absurd same (Accessor.suffix_method_ne name name')
  | member name =>
    cases a' with
    | index j => exact absurd (same.symm.trans (member name)) (Accessor.suffix_index_ne j name [])
    | method name' => exact absurd same.symm (Accessor.suffix_method_ne name' name)
    | member name' => rw [Term.memberText_injective same]

/-- The text of the term that reads a field tells how the field is reached. -/
theorem Accessor.term_text_injective {a a' : Accessor} {input : Name} {mark : Text}
    (same : (a.term input mark).toText = (a'.term input mark).toText) : a = a' := by
  rw [Accessor.toText_term_suffix, Accessor.toText_term_suffix] at same
  have between := List.append_cancel_left (List.append_cancel_right same)
  have suffixes := List.append_cancel_right (List.append_cancel_right between)
  exact Accessor.suffix_injective (List.append_cancel_left suffixes)

/-! ## Field access -/

/-- For every composite that can be built, renamed any number of times: its field names differ.
Its fields, their names, positions and types belong together. A type is found, and a place is
found, exactly for the names of fields. The field that is found at a position is the field at this
position of the composite below all renamings, is stored where that one says and has the type it
has there. Fields of different names are stored at different places. And after the same record,
with the same mark of a type, different places have different texts, whatever names or positions
they have. -/
theorem Composite.field_access_positional {c : Composite} (built : c.Built) :
    c.names.Nodup ∧
    (∀ name i, c.index? name = some i ↔ c.names[i]? = some name) ∧
    (∀ name i type, c.fields[i]? = some (.mk name type) ↔
      c.index? name = some i ∧ c.fieldType? name = some type) ∧
    (∀ name, (c.fieldType? name).isSome = c.hasField name) ∧
    (∀ name, (c.accessor? name).isSome = c.hasField name) ∧
    (∀ name i, c.index? name = some i →
      ∃ layout fields own type, c.innermost = .plain layout fields ∧
        fields[i]? = some (.mk own type) ∧
        c.innermost.accessor? own = some (layout.accessor i own) ∧
        c.accessor? name = some (layout.accessor i own) ∧ c.fieldType? name = some type) ∧
    (∀ name name' a, c.accessor? name = some a → c.accessor? name' = some a → name = name') ∧
    ∀ (input : Name) (mark : Text) (a a' : Accessor),
      (a.term input mark).toText = (a'.term input mark).toText → a = a' := by
  refine ⟨built.nodup_names, fun _ _ => built.index?_iff,
    fun name i type => ⟨fun here => ?_, fun both => ?_⟩, fun _ => Composite.isSome_fieldType?,
    fun _ => Composite.isSome_accessor?, fun name i found => ?_,
    fun _ _ _ => built.accessor?_injective, fun _ _ _ _ => Accessor.term_text_injective⟩
  · have found : c.index? name = some i := by
      rw [built.index?_iff, Composite.names, List.getElem?_map, here]
      rfl
    refine ⟨found, ?_⟩
    rw [Composite.fieldType?_of_index? found, here]
    rfl
  · obtain ⟨type', here, declared⟩ := Composite.field_of_index? both.1
    rw [here, Option.some.inj (declared.symm.trans both.2)]
  · obtain ⟨layout, fields, own, resolves⟩ := built.resolves found
    obtain ⟨type, here, declared⟩ := Composite.field_of_index? resolves.found
    refine ⟨layout, fields, own, type, resolves.innermost, ?_, ?_, resolves.stored,
      resolves.type.trans declared⟩
    · rw [resolves.innermost] at here
      exact here
    · have below := resolves.found
      rw [resolves.innermost] at below ⊢
      exact (Composite.resolves_plain below).stored

/-- A case class with a field that is named like the call of the other. After two renamings each
has the name of the other, but each name still finds its position, and the two methods are called
by different texts. -/
theorem Composite.field_access_positional_swapped :
    ∃ called numbered swapped : Composite,
      Composite.plain? .caseClass [.mk "x" .boolean, .mk "x()" .string] = .ok called ∧
      called.renaming? ["0", "[0]"] = .ok numbered ∧
      numbered.renaming? ["x()", "x"] = .ok swapped ∧
      swapped.Built ∧ swapped.index? "x" = some 1 ∧
      (∃ layout fields own type, swapped.innermost = .plain layout fields ∧
        fields[1]? = some (.mk own type) ∧
        swapped.innermost.accessor? own = some (layout.accessor 1 own) ∧
        swapped.accessor? "x" = some (layout.accessor 1 own) ∧
        swapped.fieldType? "x" = some type) ∧
      swapped.accessor? "x" = some (.method "x()") ∧ swapped.accessor? "x()" =
        some (.method "x") ∧
      ((Accessor.method "x").term (.plain "row") "string").toText ≠
        ((Accessor.method "x()").term (.plain "row") "string").toText := by
  obtain ⟨called, numbered, swapped, made, first, second, found, stored, stored'⟩ :
      ∃ called numbered swapped : Composite,
        Composite.plain? .caseClass [.mk "x" .boolean, .mk "x()" .string] = .ok called ∧
        called.renaming? ["0", "[0]"] = .ok numbered ∧
        numbered.renaming? ["x()", "x"] = .ok swapped ∧
        swapped.index? "x" = some 1 ∧ swapped.accessor? "x" = some (.method "x()") ∧
        swapped.accessor? "x()" = some (.method "x") := ⟨_, _, _, rfl, rfl, rfl, rfl, rfl, rfl⟩
  have built : swapped.Built := .renamed (.renamed (.plain made) first) second
  obtain ⟨-, -, -, -, -, resolves, -, texts⟩ := Composite.field_access_positional built
  refine ⟨called, numbered, swapped, made, first, second, built, found, resolves "x" 1 found,
    stored, stored', ?_⟩
  intro same
  exact absurd (texts _ _ _ _ same) (by decide)

end RowExpr
