import Mathlib.Data.List.Nodup
import RowExpr.Proofs.Expr.Fault

/-!
Composites that can be built, and the records they describe.

The constructors of composites refuse repeated names, so in a composite that was
built (`Composite.Built`) a field is found at the one position that has its name.
A record belongs to a composite (`Composite.Stores`) if every field, read from
where its layout keeps it, is absent or of the kind of its type. A renaming has the
records of the composite below it, and finds in them the fields that it renames
(`Composite.Built.read_fits`).
-/

namespace RowExpr

/-! ## Composites that can be built -/

/-- A composite that one of the constructors has given. -/
inductive Composite.Built : Composite → Prop
  | plain {layout : Layout} {fields : List Field} {c : Composite} :
    Composite.plain? layout fields = .ok c → c.Built
  | tuple {types : List Ty} {c : Composite} : Composite.tuple? types = .ok c → c.Built
  | renamed {underlying : Composite} {names : List Text} {c : Composite} :
    underlying.Built → Composite.renaming? underlying names = .ok c → c.Built

/-- Names that differ from each other and from those seen before them. -/
structure Text.Distinct (seen names : List Text) : Prop where
  nodup : names.Nodup
  unseen : ∀ name ∈ names, name ∉ seen

theorem Text.distinct_nil (seen : List Text) : Text.Distinct seen [] :=
  ⟨List.nodup_nil, fun _ listed => absurd listed List.not_mem_nil⟩

theorem Text.Distinct.cons {name : Text} {seen names : List Text} (fresh : name ∉ seen)
    (rest : Text.Distinct (name :: seen) names) : Text.Distinct seen (name :: names) := by
  refine ⟨List.nodup_cons.2 ⟨fun again => rest.unseen name again List.mem_cons_self, rest.nodup⟩,
    ?_⟩
  intro other listed
  rcases List.mem_cons.1 listed with rfl | later
  · exact fresh
  · exact fun known => rest.unseen other later (List.mem_cons_of_mem name known)

/-- Where no duplicate is found, there is none. -/
theorem Composite.distinct_of_firstDuplicate? {seen names : List Text}
    (unique : firstDuplicate? seen names = none) : Text.Distinct seen names := by
  induction names generalizing seen with
  | nil => exact Text.distinct_nil seen
  | cons name names ih =>
    rw [firstDuplicate?] at unique
    split at unique
    · cases unique
    · next fresh => exact .cons fresh (ih unique)

/-- The check of names changes nothing, and leaves no name that occurs twice. -/
theorem Composite.of_checkNames {c c' : Composite} (checked : c.checkNames = .ok c') :
    c' = c ∧ c.names.Nodup := by
  unfold checkNames at checked
  split at checked
  · cases checked
  · next unique =>
    cases checked
    exact ⟨rfl, (distinct_of_firstDuplicate? unique).nodup⟩

/-- The field names of a composite that was built differ. -/
theorem Composite.Built.nodup_names {c : Composite} (built : c.Built) : c.names.Nodup := by
  cases built with
  | plain made =>
    obtain ⟨rfl, nodup⟩ := of_checkNames made
    exact nodup
  | tuple made =>
    obtain ⟨rfl, nodup⟩ := of_checkNames made
    exact nodup
  | renamed _ made =>
    unfold renaming? at made
    split at made
    · cases made
    · obtain ⟨rfl, nodup⟩ := of_checkNames made
      exact nodup

/-- The type of a field is that at its position. -/
theorem Composite.fieldType?_of_index? {c : Composite} {name : Text} {i : Nat}
    (found : c.index? name = some i) : c.fieldType? name = c.fields[i]?.map Field.type := by
  rw [index?, names, List.findIdx?_map] at found
  rw [fieldType?, List.find?_eq_bind_findIdx?_getElem?]
  show ((c.fields.findIdx? ((· == name) ∘ Field.name)).bind (c.fields[·]?)).map Field.type = _
  rw [found]
  rfl

/-- In a composite without repeated names every field is found at its own position. -/
theorem Composite.index?_of_getElem? {c : Composite} (nodup : c.names.Nodup) {name : Text}
    {i : Nat} (listed : c.names[i]? = some name) : c.index? name = some i := by
  obtain ⟨inside, here⟩ := List.getElem?_eq_some_iff.1 listed
  rw [index?, List.findIdx?_eq_some_iff_getElem]
  refine ⟨inside, by simpa using here, fun j before same => ?_⟩
  have again : c.names[j] = c.names[i] :=
    (by simpa using same : c.names[j] = name).trans here.symm
  have equal := (List.Nodup.getElem_inj_iff nodup).1 again
  omega

/-! ## Fields -/

/-- A value may stand in a field of a type: it is absent or has the kind of the type.
Fields of other than basic types hold anything. -/
def Value.Fits (v : Value) : Ty → Prop
  | .basic b => v.isAbsent = true ∨ v.kind? = some b.kind
  | _ => True

/-! ## Records -/

/-- The record has the layout of a composite, and its fields hold what their types
say. A renaming has the records of the composite below it. -/
def Composite.Stores : Composite → Value → Prop
  | .plain layout fields, record =>
    ∀ i field, fields[i]? = some field →
      ∃ v, (layout.accessor i field.name).read record = .ok v ∧ v.Fits field.type
  | .renaming underlying _, record => underlying.Stores record

/-- The position of a name is one at which it stands. -/
theorem Composite.names_of_index? {c : Composite} {name : Text} {i : Nat}
    (found : c.index? name = some i) : c.names[i]? = some name := by
  rw [index?, List.findIdx?_eq_some_iff_getElem] at found
  obtain ⟨inside, here, -⟩ := found
  rw [List.getElem?_eq_getElem inside]
  exact congrArg some (beq_iff_eq.1 here)

/-- Every field that a composite has is stored somewhere. -/
theorem Composite.exists_accessor? {c : Composite} {name : Text} (has : c.hasField name = true) :
    ∃ a, c.accessor? name = some a := by
  fun_induction Composite.accessor? c name with
  | case1 layout fields name =>
    obtain ⟨i, found⟩ := Option.isSome_iff_exists.1 has
    exact ⟨layout.accessor i name, by rw [found, Option.map_some]⟩
  | case2 underlying labels name i found inner listed ih =>
    refine ih ?_
    rw [hasField, index?, List.findIdx?_isSome, List.any_eq_true]
    exact ⟨inner, List.mem_of_getElem? listed, beq_self_eq_true inner⟩
  | case3 underlying labels name i found missing =>
    -- A renaming has at most as many fields as the composite below it.
    have beyond : underlying.names.length ≤ i := List.getElem?_eq_none_iff.1 missing
    obtain ⟨inside, -⟩ := List.getElem?_eq_some_iff.1 (names_of_index? found)
    rw [names, fields, List.length_map, List.length_zipWith] at inside
    rw [names, List.length_map] at beyond
    omega
  | case4 underlying labels name missing =>
    rw [hasField, missing] at has
    cases has

/-- A record stored in a layout can be read by the accesses of that layout. -/
theorem Composite.Stores.read_plain {layout : Layout} {fields : List Field} {record : Value}
    {name : Text} {a : Accessor} {type : Ty}
    (stores : (Composite.plain layout fields).Stores record)
    (stored : (Composite.plain layout fields).accessor? name = some a)
    (declared : (Composite.plain layout fields).fieldType? name = some type) :
    ∃ v, a.read record = .ok v ∧ v.Fits type := by
  rw [accessor?] at stored
  obtain ⟨i, found, rfl⟩ := Option.map_eq_some_iff.1 stored
  rw [fieldType?_of_index? found] at declared
  obtain ⟨field, here, rfl⟩ := Option.map_eq_some_iff.1 declared
  have named : field.name = name := by
    have listed := names_of_index? found
    rw [names, List.getElem?_map, here] at listed
    exact Option.some.inj listed
  rw [← named]
  exact stores i field here

/-- The type of a renamed field is that of the field at its position below. -/
theorem Composite.fieldType?_renaming {underlying : Composite} {names : List Text} {name : Text}
    {i : Nat} (found : (Composite.renaming underlying names).index? name = some i) {type : Ty}
    (declared : (Composite.renaming underlying names).fieldType? name = some type) :
    underlying.fields[i]?.map Field.type = some type := by
  rw [fieldType?_of_index? found, fields, List.getElem?_zipWith] at declared
  cases here : names[i]? with
  | none =>
    rw [here] at declared
    cases declared
  | some label =>
    rw [here] at declared
    cases below : underlying.fields[i]? with
    | none =>
      rw [below] at declared
      cases declared
    | some field =>
      rw [below] at declared
      exact declared

/-- Reading a field of a record that belongs to the composite gives a value of the
type of the field, or an absent one. -/
theorem Composite.Built.read_fits {c : Composite} (built : c.Built) {record : Value}
    (stores : c.Stores record) {name : Text} {a : Accessor} {type : Ty}
    (stored : c.accessor? name = some a) (declared : c.fieldType? name = some type) :
    ∃ v, a.read record = .ok v ∧ v.Fits type := by
  induction built generalizing name type with
  | plain made =>
    obtain ⟨rfl, -⟩ := of_checkNames made
    exact stores.read_plain stored declared
  | tuple made =>
    obtain ⟨rfl, -⟩ := of_checkNames made
    exact stores.read_plain stored declared
  | @renamed underlying names c below made ih =>
    unfold renaming? at made
    split at made
    · cases made
    · obtain ⟨rfl, -⟩ := of_checkNames made
      rw [accessor?] at stored
      split at stored
      · next i found =>
        split at stored
        · next inner listed =>
          refine ih stores stored ?_
          rw [fieldType?_of_index? (index?_of_getElem? below.nodup_names listed)]
          exact fieldType?_renaming found declared
        · cases stored
      · cases stored

end RowExpr
