import RowExpr.Code.Declaration
import RowExpr.Proofs.Text.Numeral

/-!
What a registry holds.

Declarations are told apart by their text. `Declaration.text_injective` shows that
nothing is lost by that, so a registry that has been asked for declarations holds
each of them once, in the order in which they were first asked for, and one zone
setting for each formatter among them (`Registry.Lists`). What a registry adds to its
texts is what a new one would have, without the texts that are there already
(`Registry.memberTexts_ensureAll`).
-/

namespace RowExpr

/-! ## Names and texts of declarations -/

/-- What the name of the constant of a time has after `date$`. -/
def Time.tag : Time → Text
  | none => "NaN"
  | some t =>
    if t.millis < 0 then ("m" : Text) ++ Text.ofNat t.millis.natAbs
      else Text.ofNat t.millis.natAbs

/-- The constant of a date is named after its time. -/
theorem Name.text_dateConstant (t : Time) :
    (Name.dateConstant t).text = ("date$" : Text) ++ t.tag := by
  cases t with
  | none => rfl
  | some i =>
    simp only [Name.text, Time.tag]
    split
    · rw [← List.append_assoc]
      rfl
    · rfl

/-- A numeral has nothing but digits. -/
theorem Text.not_mem_ofNat {n : Nat} {u : UInt16} (other : isDigit u = false) : u ∉ ofNat n := by
  intro written
  rw [isDigit_of_mem_ofNat written] at other
  cases other

/-- The constants of different times have different names: a sign is an `m`, and no
numeral has a letter. -/
theorem Time.tag_injective {s t : Time} (same : s.tag = t.tag) : s = t := by
  have letter {n : Nat} {rest : Text} {u : UInt16} (other : Text.isDigit u = false) :
      Text.ofNat n ≠ u :: rest := by
    intro equal
    exact Text.not_mem_ofNat other (equal ▸ List.mem_cons_self)
  rcases s with _ | ⟨m, mRange⟩ <;> rcases t with _ | ⟨n, nRange⟩
  · rfl
  · simp only [tag] at same
    split at same
    · cases same
    · exact absurd same.symm (letter (u := 78) rfl)
  · simp only [tag] at same
    split at same
    · cases same
    · exact absurd same (letter (u := 78) rfl)
  · have equal : m = n := by
      simp only [tag] at same
      split at same <;> split at same
      · have := Text.ofNat_injective (List.append_cancel_left same)
        omega
      · exact absurd same.symm (letter (u := 109) rfl)
      · exact absurd same (letter (u := 109) rfl)
      · have := Text.ofNat_injective same
        omega
    subst equal
    rfl

/-- No formatter has the name of a constant. -/
theorem Name.text_formatter_ne (k : FormatterKind) (t : Time) :
    (Name.formatter k).text ≠ (Name.dateConstant t).text := by
  intro same
  rw [Name.text_dateConstant] at same
  have head := congrArg (List.take 5) same
  rw [List.take_append_of_le_length (by decide)] at head
  cases k <;> exact absurd head (by decide)

/-- Declarations are told apart by their names. -/
theorem Declaration.name_text_injective {d d' : Declaration} (same : d.name.text = d'.name.text) :
    d = d' := by
  match d, d' with
  | .formatter k, .formatter k' => revert same; cases k <;> cases k' <;> decide
  | .formatter k, .dateConstant t => exact absurd same (Name.text_formatter_ne k t)
  | .dateConstant t, .formatter k => exact absurd same.symm (Name.text_formatter_ne k t)
  | .dateConstant t, .dateConstant t' =>
    rw [name, name, Name.text_dateConstant, Name.text_dateConstant] at same
    rw [Time.tag_injective (List.append_cancel_left same)]

/-- A declaration begins with its name, and a space ends the name. -/
theorem Declaration.exists_text (d : Declaration) :
    ∃ rest, d.text = ("const " : Text) ++ (d.name.text ++ 32 :: rest) := by
  cases d with
  | formatter k =>
    exact ⟨_, by rw [text, List.append_assoc, List.append_assoc, List.append_assoc]; rfl⟩
  | dateConstant t =>
    exact ⟨_, by rw [text, List.append_assoc, List.append_assoc, List.append_assoc]; rfl⟩

/-- The tag of a time has no blanks. -/
theorem Time.not_mem_tag (t : Time) : (32 : UInt16) ∉ t.tag := by
  cases t with
  | none => decide
  | some i =>
    have numeral : (32 : UInt16) ∉ Text.ofNat i.millis.natAbs := Text.not_mem_ofNat rfl
    rw [tag]
    split
    · rw [List.mem_append, not_or]
      exact ⟨by decide, numeral⟩
    · exact numeral

/-- Names have no blanks, so the first blank of a declaration ends its name. -/
theorem Declaration.not_mem_name (d : Declaration) : (32 : UInt16) ∉ d.name.text := by
  cases d with
  | formatter k => cases k <;> decide
  | dateConstant t =>
    rw [name, Name.text_dateConstant, List.mem_append, not_or]
    exact ⟨by decide, t.not_mem_tag⟩

/-- What stands before the first mark is determined by the whole. -/
theorem Text.eq_of_append_mark {s t rest rest' : Text} {mark : UInt16} (left : mark ∉ s)
    (right : mark ∉ t) (same : s ++ mark :: rest = t ++ mark :: rest') : s = t := by
  have cut {u more : Text} (free : mark ∉ u) : (u ++ mark :: more).takeWhile (· ≠ mark) = u := by
    have before : ∀ v ∈ u, decide (v ≠ mark) = true := by
      intro v inside
      exact decide_eq_true fun equal => free (equal ▸ inside)
    rw [List.takeWhile_append_of_pos before, List.takeWhile_cons_of_neg (by simp),
      List.append_nil]
  rw [← cut left , same, cut right]

/-- Declarations are told apart by their texts, since each text has the name in it. -/
theorem Declaration.text_injective {d d' : Declaration} (same : d.text = d'.text) : d = d' := by
  obtain ⟨rest, written⟩ := d.exists_text
  obtain ⟨rest', written'⟩ := d'.exists_text
  rw [written, written'] at same
  exact name_text_injective
    (Text.eq_of_append_mark d.not_mem_name d'.not_mem_name (List.append_cancel_left same))

/-! ## Registries -/

/-- The kind of a declared formatter. -/
def Declaration.formatter? : Declaration → Option FormatterKind
  | .formatter k => some k
  | .dateConstant _ => none

@[simp] theorem Declaration.formatter?_eq_some {d : Declaration} {k : FormatterKind} :
    d.formatter? = some k ↔ d = .formatter k := by
  cases d <;> simp [formatter?]

/-- The registry declares `ds`, each once, and sets the zone of every formatter among
them. -/
structure Registry.Lists (r : Registry) (ds : List Declaration) : Prop where
  members : r.members = ds.map .declared
  inits : r.inits = (ds.filterMap Declaration.formatter?).map .setZone
  nodup : ds.Nodup

theorem Registry.lists_empty (zone : Text) : (Registry.empty zone).Lists [] :=
  ⟨rfl, rfl, List.nodup_nil⟩

section Lists

variable {r : Registry} {ds : List Declaration}

/-- The lines of a registry are those of its declarations. -/
theorem Registry.Lists.memberTexts_eq (lists : r.Lists ds) :
    r.memberTexts = ds.map Declaration.text := by
  rw [Registry.memberTexts, lists.members, List.map_map]
  rfl

/-- A registry that looks for the text of a declaration finds it if and only if it has the
declaration. -/
theorem Registry.Lists.text_mem_iff (lists : r.Lists ds) (d : Declaration) :
    (Member.declared d).text ∈ r.memberTexts ↔ d ∈ ds := by
  rw [lists.memberTexts_eq, List.mem_map]
  constructor
  · rintro ⟨d', listed, same⟩
    have equal : d' = d := Declaration.text_injective same
    exact equal ▸ listed
  · intro listed
    exact ⟨d, listed, rfl⟩

/-- A zone setting begins with the name of its formatter, and a dot ends the name. -/
theorem Init.text_setZone_injective {zone zone' : Text} {k k' : FormatterKind}
    (same : (Init.setZone k).text zone = (Init.setZone k').text zone') : k = k' := by
  have dotless (k : FormatterKind) : (46 : UInt16) ∉ (Name.formatter k).text := by
    cases k <;> decide
  rw [Init.text, Init.text, List.append_assoc, List.append_assoc, List.append_assoc,
    List.append_assoc] at same
  have equal : Declaration.formatter k = .formatter k' :=
    Declaration.name_text_injective (Text.eq_of_append_mark (dotless k) (dotless k') same)
  injection equal

/-- It finds the text that sets a zone if and only if it declares that formatter. -/
theorem Registry.Lists.initText_mem_iff (lists : r.Lists ds) (k : FormatterKind) :
    (Init.setZone k).text r.zone ∈ r.initTexts ↔ .formatter k ∈ ds := by
  rw [Registry.initTexts, lists.inits, List.map_map, List.mem_map]
  constructor
  · rintro ⟨k', listed, same⟩
    obtain ⟨d, inside, kind⟩ := List.mem_filterMap.1 listed
    rw [← Init.text_setZone_injective same, ← Declaration.formatter?_eq_some.1 kind]
    exact inside
  · intro listed
    exact ⟨k, List.mem_filterMap.2 ⟨_, listed, rfl⟩, rfl⟩

/-- Asking for a declaration that is there changes nothing. -/
theorem Registry.Lists.ensure_eq (lists : r.Lists ds) {d : Declaration} (listed : d ∈ ds) :
    r.ensure d = r := by
  have known : r.addMember (.declared d) = r := if_pos ((lists.text_mem_iff d).2 listed)
  cases d with
  | formatter k =>
    have zoned : r.addInit (.setZone k) = r := if_pos ((lists.initText_mem_iff k).2 listed)
    rw [Registry.ensure, known, zoned]
  | dateConstant t => rw [Registry.ensure, known]

/-- Asking for a declaration adds it at the end, unless it is there. -/
theorem Registry.Lists.ensure (lists : r.Lists ds) (d : Declaration) :
    (r.ensure d).Lists (if d ∈ ds then ds else ds ++ [d]) := by
  by_cases listed : d ∈ ds
  · rw [if_pos listed, lists.ensure_eq listed]
    exact lists
  · have added : r.addMember (.declared d) = { r with members := r.members ++ [.declared d] } :=
      if_neg fun written => listed ((lists.text_mem_iff d).1 written)
    have nodup : (ds ++ [d]).Nodup := by
      rw [List.nodup_append]
      refine ⟨lists.nodup, by simp, fun x inside y last same => ?_⟩
      rw [List.mem_singleton.1 last] at same
      exact listed (same ▸ inside)
    rw [if_neg listed]
    cases d with
    | formatter k =>
      have zoned :
        ({ r with members := r.members ++ [.declared (.formatter k)] } : Registry).addInit
          (.setZone k) =
          { r with members := r.members ++ [.declared (.formatter k)], inits :=
            r.inits ++ [.setZone k] } :=
        if_neg fun written => listed ((lists.initText_mem_iff k).1 written)
      rw [Registry.ensure, added, zoned]
      refine ⟨?_, ?_, nodup⟩
      · rw [lists.members, List.map_append]
        rfl
      · rw [lists.inits, List.filterMap_append, List.map_append]
        rfl
    | dateConstant t =>
      rw [Registry.ensure, added]
      refine ⟨?_, ?_, nodup⟩
      · rw [lists.members, List.map_append]
        rfl
      · rw [lists.inits, List.filterMap_append, List.map_append]
        exact (List.append_nil _).symm

/-- Asking for declarations one after the other adds those that are new. -/
theorem Registry.Lists.ensureAll (lists : r.Lists ds) (asked : List Declaration) :
    ∃ ds', (r.ensureAll asked).Lists ds' ∧ ds <+: ds' ∧ ∀ d, d ∈ ds' ↔ d ∈ ds ∨ d ∈ asked := by
  induction asked generalizing r ds with
  | nil => exact ⟨ds, lists, List.prefix_rfl, fun d => by simp⟩
  | cons head asked ih =>
    obtain ⟨ds', lists', grown, same⟩ := ih (lists.ensure head)
    refine ⟨ds', lists', List.IsPrefix.trans ?_ grown, fun d => ?_⟩
    · split
      · exact List.prefix_rfl
      · exact List.prefix_append ds [head]
    · rw [same d, List.mem_cons]
      split
      · next listed =>
        constructor
        · rintro (old | new)
          · exact .inl old
          · exact .inr (.inr new)
        · rintro (old | rfl | new)
          · exact .inl old
          · exact .inl listed
          · exact .inr new
      · rw [List.mem_append, List.mem_singleton, or_assoc]

end Lists

@[simp] theorem Registry.zone_addMember (r : Registry) (m : Member) :
    (r.addMember m).zone = r.zone := by
  unfold addMember
  split <;> rfl

@[simp] theorem Registry.zone_addInit (r : Registry) (i : Init) :
    (r.addInit i).zone = r.zone := by
  unfold addInit
  split <;> rfl

theorem Registry.zone_ensure (r : Registry) (d : Declaration) : (r.ensure d).zone = r.zone := by
  cases d <;> simp [ensure]

theorem Registry.zone_ensureAll (r : Registry) (ds : List Declaration) :
    (r.ensureAll ds).zone = r.zone := by
  induction ds generalizing r with
  | nil => rfl
  | cons d ds ih => exact (ih (r.ensure d)).trans (r.zone_ensure d)

theorem Registry.ensureAll_append (r : Registry) (first rest : List Declaration) :
    r.ensureAll (first ++ rest) = (r.ensureAll first).ensureAll rest :=
  List.foldl_append

/-- The registry lists declarations, those of `ds` among them. -/
def Registry.Covers (r : Registry) (ds : List Declaration) : Prop :=
  ∃ known, r.Lists known ∧ ds ⊆ known

theorem Registry.Covers.mono {r : Registry} {ds ds' : List Declaration} (covers : r.Covers ds)
    (sub : ds' ⊆ ds) : r.Covers ds' := by
  obtain ⟨known, lists, inside⟩ := covers
  exact ⟨known, lists, List.Subset.trans sub inside⟩

theorem Registry.Covers.append {r : Registry} {ds ds' : List Declaration} (covers : r.Covers ds)
    (others : r.Covers ds') : r.Covers (ds ++ ds') := by
  obtain ⟨known, lists, inside⟩ := covers
  obtain ⟨known', lists', inside'⟩ := others
  have same : known = known' := by
    refine (List.map_inj_right fun _ _ => ?_).1 (lists.members.symm.trans lists'.members)
    exact Member.declared.inj
  subst same
  exact ⟨known, lists, List.append_subset.2 ⟨inside, inside'⟩⟩

/-- A registry covers what it is asked for, and what it covers stays covered. -/
theorem Registry.Covers.ensureAll {r : Registry} {ds : List Declaration} (covers : r.Covers ds)
    (asked : List Declaration) : (r.ensureAll asked).Covers (ds ++ asked) := by
  obtain ⟨known, lists, inside⟩ := covers
  obtain ⟨known', lists', -, same⟩ := lists.ensureAll asked
  refine ⟨known', lists', fun d either => (same d).2 ?_⟩
  exact (List.mem_append.1 either).imp (fun old => inside old) id

/-! ## Texts of a registry -/

/-- The texts with one more at the end, unless it is there. -/
def Text.insertNew (texts : List Text) (t : Text) : List Text :=
  if t ∈ texts then texts else texts ++ [t]

/-- Texts that are known stay before those that are found. -/
theorem Text.insertNew_after (known found : List Text) (t : Text) :
    insertNew (known ++ found.filter (· ∉ known)) t = known ++ (insertNew found t).filter
      (· ∉ known) := by
  unfold insertNew
  -- A text that is known is not added on the left, and on the right it does not get through the
  -- filter.
  by_cases old : t ∈ known
  · have present : t ∈ known ++ found.filter (· ∉ known) := List.mem_append_left _ old
    rw [if_pos present]
    split
    · rfl
    · simp [old]
  · have same : t ∈ known ++ found.filter (· ∉ known) ↔ t ∈ found := by simp [old]
    simp only [same]
    split
    · rfl
    · simp [old]

/-- Adding texts to a list that begins with known ones adds those that are not known. -/
theorem Text.foldl_insertNew_after (known found added : List Text) :
    added.foldl insertNew (known ++ found.filter (· ∉ known)) =
      known ++ (added.foldl insertNew found).filter (· ∉ known) := by
  induction added generalizing found with
  | nil => rfl
  | cons t added ih =>
    rw [List.foldl_cons, List.foldl_cons, insertNew_after]
    exact ih (insertNew found t)

/-- Adding texts to a list adds, in their order, those that it does not have, each once. -/
theorem Text.foldl_insertNew (known added : List Text) :
    added.foldl insertNew known = known ++ (added.foldl insertNew []).filter (· ∉ known) := by
  have whole := foldl_insertNew_after known [] added
  rwa [List.filter_nil, List.append_nil] at whole

section Texts

variable (r : Registry)

theorem Registry.memberTexts_addMember (m : Member) :
    (r.addMember m).memberTexts = Text.insertNew r.memberTexts m.text := by
  unfold Registry.addMember Text.insertNew
  split
  · rfl
  · exact List.map_append

theorem Registry.initTexts_addMember (m : Member) : (r.addMember m).initTexts = r.initTexts := by
  unfold Registry.addMember
  split <;> rfl

theorem Registry.memberTexts_addInit (i : Init) : (r.addInit i).memberTexts = r.memberTexts := by
  unfold Registry.addInit
  split <;> rfl

theorem Registry.initTexts_addInit (i : Init) :
    (r.addInit i).initTexts = Text.insertNew r.initTexts (i.text r.zone) := by
  unfold Registry.addInit Text.insertNew
  split
  · rfl
  · exact List.map_append

/-- Asking for a declaration adds its text if it is new. -/
theorem Registry.memberTexts_ensure (d : Declaration) :
    (r.ensure d).memberTexts = Text.insertNew r.memberTexts d.text := by
  cases d with
  | formatter k => exact (Registry.memberTexts_addInit _ _).trans (r.memberTexts_addMember _)
  | dateConstant t => exact r.memberTexts_addMember _

/-- The texts of the zone settings that declarations need. -/
def Declaration.initTexts (zone : Text) (ds : List Declaration) : List Text :=
  (ds.filterMap Declaration.formatter?).map fun k => (Init.setZone k).text zone

/-- The initialisations of a registry follow from what it declares. -/
theorem Registry.Lists.initTexts_eq {r : Registry} {ds : List Declaration} (lists : r.Lists ds) :
    r.initTexts = Declaration.initTexts r.zone ds := by
  rw [Registry.initTexts, lists.inits, List.map_map]
  rfl

/-- Asking for a formatter also adds the text that sets its zone. -/
theorem Registry.initTexts_ensure (d : Declaration) :
    (r.ensure d).initTexts = (Declaration.initTexts r.zone [d]).foldl Text.insertNew
      r.initTexts := by
  cases d with
  | formatter k =>
    rw [Registry.ensure, Registry.initTexts_addInit, r.initTexts_addMember, r.zone_addMember]
    rfl
  | dateConstant t => exact r.initTexts_addMember _

/-- All texts that are asked for are added one after another. -/
theorem Registry.memberTexts_eq_foldl (asked : List Declaration) :
    (r.ensureAll asked).memberTexts = (asked.map Declaration.text).foldl Text.insertNew
      r.memberTexts := by
  induction asked generalizing r with
  | nil => rfl
  | cons d asked ih =>
    rw [List.map_cons, List.foldl_cons, ← r.memberTexts_ensure d]
    exact ih (r.ensure d)

theorem Registry.initTexts_eq_foldl (asked : List Declaration) :
    (r.ensureAll asked).initTexts = (Declaration.initTexts r.zone asked).foldl Text.insertNew
      r.initTexts := by
  induction asked generalizing r with
  | nil => rfl
  | cons d asked ih =>
    have parts : Declaration.initTexts r.zone (d :: asked) =
        Declaration.initTexts r.zone [d] ++ Declaration.initTexts r.zone asked := by
      simp only [Declaration.initTexts, ← List.map_append, ← List.filterMap_append,
        List.singleton_append]
    rw [parts, List.foldl_append, ← r.initTexts_ensure d, ← r.zone_ensure d]
    exact ih (r.ensure d)

/-- What is asked for is written after the members that are there, as in a new registry but
without what is there already. -/
theorem Registry.memberTexts_ensureAll (asked : List Declaration) :
    (r.ensureAll asked).memberTexts = r.memberTexts ++
      ((Registry.empty r.zone).ensureAll asked).memberTexts.filter (· ∉ r.memberTexts) := by
  rw [r.memberTexts_eq_foldl, Registry.memberTexts_eq_foldl]
  exact Text.foldl_insertNew _ _

/-- What is asked for adds to a registry what it would add to an empty one, without what is there
already. -/
theorem Registry.initTexts_ensureAll (asked : List Declaration) :
    (r.ensureAll asked).initTexts = r.initTexts ++
      ((Registry.empty r.zone).ensureAll asked).initTexts.filter (· ∉ r.initTexts) := by
  rw [r.initTexts_eq_foldl, Registry.initTexts_eq_foldl]
  exact Text.foldl_insertNew _ _

end Texts

end RowExpr
