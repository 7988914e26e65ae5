import Mathlib.Data.List.Count
import Mathlib.Data.List.Nodup
import RowExpr.Proofs.Unit.Cutting

/-!
What calls of a registry leave behind.

Every call asks for a formatter or for the constant of a time and gives an identifier. A registry
tells its statements apart by their texts alone, so all that is said here is said of texts: a
member declares the word after `const` (`Declaration.declared?_text`), and an initialising
statement calls a method of the word in front of its dot (`Init.receiver?_text`). Texts that are
kept unless they are there stand in the order in which they first came (`Text.Firsts.insertNew`,
`Text.Firsts.foldl_insertNew`). After any calls the members declare different identifiers, those
that were given among them, and every formatter gets its zone once
(`Registry.registration_invariant`).
-/

namespace RowExpr

/-! ## Statements in text -/

/-- The word that begins a text, and what follows it. -/
def Text.word? (t : Text) : Option (Text × Text) :=
  match Token.first? t with
  | some (.word w, rest) => some (w, rest)
  | _ => none

/-- The identifier that a statement declares: the word after `const`. -/
def Text.declared? (statement : Text) : Option Text :=
  statement.word?.bind fun p =>
    if p.1 = "const" then (Text.word? (p.2.dropWhile Text.isBlank)).map Prod.fst else none

/-- The identifier whose method a statement calls: the word in front of a dot. -/
def Text.receiver? (statement : Text) : Option Text :=
  statement.word?.bind fun p => if p.2.head? = some 46 then some p.1 else none

theorem Text.word?_append {w rest : Text} (identifier : Name.isIdentifier w = true)
    (stops : Text.Stops Token.inWord rest) : Text.word? (w ++ rest) = some (w, rest) := by
  rw [Text.word?, Token.first?_word identifier stops]

/-- A member declares the name of its declaration. -/
theorem Declaration.declared?_text (d : Declaration) : d.text.declared? = some d.name.text := by
  obtain ⟨rest, written⟩ := d.exists_text
  have stops (t : Text) : Text.Stops Token.inWord (32 :: t) := Text.stops_cons.2 (by decide)
  have const : Name.isIdentifier "const" = true := by decide
  have keyword : d.text.word? = some (("const" : Text), [32] ++ (d.name.text ++ 32 :: rest)) := by
    rw [written]
    exact Text.word?_append const (stops _)
  have visible : Text.Stops Text.isBlank (d.name.text ++ 32 :: rest) := by
    obtain ⟨u, tail, shape, starts, -⟩ := Token.word_of_isIdentifier d.isIdentifier_name
    rw [shape]
    exact Text.stops_cons.2 (Token.visible_of_startsWord starts)
  have blank : ∀ u ∈ [(32 : UInt16)], Text.isBlank u = true :=
    List.forall_mem_singleton.2 (by decide)
  rw [Text.declared?, keyword, Option.bind_some, if_pos rfl, Text.dropWhile_run blank visible,
    Text.word?_append d.isIdentifier_name (stops rest)]
  rfl

/-- A zone is set by a call of the formatter, whatever the zone is. -/
theorem Init.receiver?_text (zone : Text) (k : FormatterKind) :
    ((Init.setZone k).text zone).receiver? = some (Name.formatter k).text := by
  have identifier := (Declaration.formatter k).isIdentifier_name
  rw [Declaration.name] at identifier
  have stops : Text.Stops Token.inWord (".setTimeZone(" ++ (zone.singleQuoted ++ ");")) :=
    Text.stops_cons.2 (by decide)
  rw [Init.text, List.append_assoc, List.append_assoc, Text.receiver?,
    Text.word?_append identifier stops, Option.bind_some]
  exact if_pos rfl

/-! ## Order of registration -/

/-- What is kept are the texts that were asked for, in the order in which they were first asked
for. -/
structure Text.Firsts (asked kept : List Text) : Prop where
  mem_iff : ∀ t, t ∈ kept ↔ t ∈ asked
  order : kept.Pairwise fun s t => asked.idxOf s < asked.idxOf t

section Firsts

variable {asked kept : List Text}

theorem Text.firsts_nil : Text.Firsts [] [] := ⟨fun _ => Iff.rfl, .nil⟩

/-- What is asked for later does not change the order of what is there. -/
theorem Text.Firsts.order_append (firsts : Text.Firsts asked kept) (more : List Text) :
    kept.Pairwise fun s t => (asked ++ more).idxOf s < (asked ++ more).idxOf t := by
  refine firsts.order.imp_of_mem fun {s t} left right before => ?_
  rw [List.idxOf_append_of_mem ((firsts.mem_iff s).1 left),
    List.idxOf_append_of_mem ((firsts.mem_iff t).1 right)]
  exact before

/-- One text more is asked for. -/
theorem Text.Firsts.insertNew (firsts : Text.Firsts asked kept) (t : Text) :
    Text.Firsts (asked ++ [t]) (Text.insertNew kept t) := by
  unfold Text.insertNew
  by_cases known : t ∈ kept
  · rw [if_pos known]
    refine ⟨fun s => ?_, firsts.order_append [t]⟩
    rw [List.mem_append, List.mem_singleton, firsts.mem_iff]
    constructor
    · exact .inl
    · rintro (old | rfl)
      · exact old
      · exact (firsts.mem_iff _).1 known
  · rw [if_neg known]
    refine ⟨fun s => ?_,
      List.pairwise_append.2 ⟨firsts.order_append [t], List.pairwise_singleton _ _, ?_⟩⟩
    · rw [List.mem_append, List.mem_append, firsts.mem_iff]
    · -- The new text is first asked for after all others.
      intro s old t' new
      rw [List.mem_singleton.1 new]
      have early : s ∈ asked := (firsts.mem_iff s).1 old
      have late : t ∉ asked := mt (firsts.mem_iff t).2 known
      rw [List.idxOf_append_of_mem early, List.idxOf_append_of_notMem late]
      exact Nat.lt_of_lt_of_le (List.idxOf_lt_length_of_mem early) (Nat.le_add_right _ _)

/-- Any number of texts more are asked for. -/
theorem Text.Firsts.foldl_insertNew (firsts : Text.Firsts asked kept) (more : List Text) :
    Text.Firsts (asked ++ more) (more.foldl Text.insertNew kept) := by
  induction more generalizing asked kept with
  | nil =>
    rw [List.append_nil]
    exact firsts
  | cons t more ih =>
    have rest := ih (firsts.insertNew t)
    rw [List.append_assoc, List.singleton_append] at rest
    exact rest

end Firsts

/-! ## Calls -/

/-- What a registry for a zone is like after calls, each of which has given the name of what it
asked for. -/
structure Registry.Registered (r : Registry) (zone : Text) (calls : List Declaration) : Prop where
  /-- Every member declares an identifier, and no two members declare the same. -/
  distinct : ∃ identifiers : List Text,
    r.memberTexts.map Text.declared? = identifiers.map some ∧ identifiers.Nodup
  /-- What a call has given is declared by one member. -/
  declared : ∀ call ∈ calls, r.memberTexts.countP (fun m => m.declared? = some call.name.text) = 1
  /-- Every initialising statement calls a formatter that a member declares. -/
  receivers : ∀ init ∈ r.initTexts, ∃ k, (Declaration.formatter k).text ∈ r.memberTexts ∧
    (Declaration.formatter k).text.declared? = init.receiver? ∧
    init.receiver? = some (Name.formatter k).text
  /-- Every formatter that a member declares is called by one initialising statement. -/
  zoned : ∀ k, (Declaration.formatter k).text ∈ r.memberTexts →
    r.initTexts.countP (fun init => init.receiver? = some (Name.formatter k).text) = 1
  /-- Members stand in the order in which they were first asked for. -/
  members : Text.Firsts (calls.map Declaration.text) r.memberTexts
  /-- Initialising statements stand in the order in which they were first asked for. -/
  inits : Text.Firsts (Declaration.initTexts zone calls) r.initTexts
  /-- Another call adds at the end and takes nothing away. -/
  grows : ∀ call, r.memberTexts <+: (r.ensure call).memberTexts ∧
    r.initTexts <+: (r.ensure call).initTexts
  /-- A call that was made before changes nothing. -/
  repeated : ∀ call ∈ calls, r.ensure call = r

/-- Where nothing stands twice, one element passes a test that only it passes. -/
theorem countP_eq_one {α : Type} [DecidableEq α] {l : List α} (nodup : l.Nodup) {a : α}
    (listed : a ∈ l) {p : α → Bool} (only : ∀ b, p b = true ↔ b = a) : l.countP p = 1 := by
  have counted : l.countP p = l.count a :=
    List.countP_congr fun b _ => (only b).trans beq_iff_eq.symm
  rw [counted]
  exact List.count_eq_one_of_mem nodup listed

section Lists

variable {r : Registry} {known : List Declaration} (lists : r.Lists known)

include lists

theorem Registry.Lists.distinct :
    ∃ identifiers : List Text, r.memberTexts.map Text.declared? = identifiers.map some ∧
      identifiers.Nodup := by
  have injective : Function.Injective fun d : Declaration => d.name.text :=
    fun _ _ => Declaration.name_text_injective
  refine ⟨known.map fun d => d.name.text, ?_, lists.nodup.map injective⟩
  rw [lists.memberTexts_eq, List.map_map, List.map_map]
  exact List.map_congr_left fun d _ => d.declared?_text

theorem Registry.Lists.countP_declared {d : Declaration} (listed : d ∈ known) :
    r.memberTexts.countP (fun m => m.declared? = some d.name.text) = 1 := by
  rw [lists.memberTexts_eq, List.countP_map]
  refine countP_eq_one lists.nodup listed fun d' => ?_
  simp only [Function.comp, Declaration.declared?_text, decide_eq_true_iff, Option.some.injEq]
  constructor
  · exact Declaration.name_text_injective
  · rintro rfl
    rfl

theorem Registry.Lists.receiver {init : Text} (written : init ∈ r.initTexts) :
    ∃ k, (Declaration.formatter k).text ∈ r.memberTexts ∧
      (Declaration.formatter k).text.declared? = init.receiver? ∧
      init.receiver? = some (Name.formatter k).text := by
  rw [lists.initTexts_eq] at written
  obtain ⟨k, kind, rfl⟩ := List.mem_map.1 written
  obtain ⟨d, listed, found⟩ := List.mem_filterMap.1 kind
  obtain rfl := Declaration.formatter?_eq_some.1 found
  have called := Init.receiver?_text r.zone k
  exact ⟨k, (lists.text_mem_iff _).2 listed,
    (Declaration.declared?_text _).trans called.symm, called⟩

theorem Registry.Lists.countP_receiver {k : FormatterKind}
    (written : (Declaration.formatter k).text ∈ r.memberTexts) :
    r.initTexts.countP (fun init => init.receiver? = some (Name.formatter k).text) = 1 := by
  have listed : .formatter k ∈ known := (lists.text_mem_iff _).1 written
  have kinds : (known.filterMap Declaration.formatter?).Nodup := by
    refine lists.nodup.filterMap fun d d' k left right => ?_
    rw [Declaration.formatter?_eq_some.1 left, Declaration.formatter?_eq_some.1 right]
  rw [lists.initTexts_eq, Declaration.initTexts, List.countP_map]
  refine countP_eq_one kinds (List.mem_filterMap.2 ⟨_, listed, rfl⟩) fun k' => ?_
  simp only [Function.comp, Init.receiver?_text, decide_eq_true_iff, Option.some.injEq]
  constructor
  · intro same
    exact Declaration.formatter.inj (Declaration.name_text_injective same)
  · rintro rfl
    rfl

end Lists

/-- The sign of a time is kept in the name of its constant, so the name tells the time. -/
theorem Instant.constant_eq_iff (s t : Instant) :
    (Declaration.dateConstant (some s)).name.text =
      (Declaration.dateConstant (some t)).name.text ↔
      s.millis = t.millis := by
  constructor
  · intro same
    rw [Option.some.inj (Declaration.dateConstant.inj (Declaration.name_text_injective same))]
  · intro same
    obtain ⟨m, inRange⟩ := s
    obtain ⟨n, inRange'⟩ := t
    obtain rfl : m = n := same
    rfl

/-- After any formatters and any constants of times were asked for, in any order and any number of
times, the members declare different identifiers, each call has given one of them, every
initialising statement sets the zone of a declared formatter and every declared formatter is set
once. The lists stand in the order of the first calls, a further call only adds to them, and a
call that was made before changes nothing. Two constants have one identifier if and only if their
times are the same number of milliseconds. -/
theorem Registry.registration_invariant (zone : Text) (calls : List Declaration) :
    ((Registry.empty zone).ensureAll calls).Registered zone calls ∧
    ∀ s t : Instant, (Declaration.dateConstant (some s)).name.text =
      (Declaration.dateConstant (some t)).name.text ↔
      s.millis = t.millis := by
  obtain ⟨known, lists, -, same⟩ := (Registry.lists_empty zone).ensureAll calls
  have listed {d : Declaration} (asked : d ∈ calls) : d ∈ known := (same d).2 (.inr asked)
  refine ⟨?_, Instant.constant_eq_iff⟩
  exact {
    distinct := lists.distinct
    declared := fun call asked => lists.countP_declared (listed asked)
    receivers := fun init => lists.receiver
    zoned := fun k => lists.countP_receiver
    members := by
      rw [Registry.memberTexts_eq_foldl]
      exact Text.firsts_nil.foldl_insertNew _
    inits := by
      rw [Registry.initTexts_eq_foldl]
      exact Text.firsts_nil.foldl_insertNew _
    grows := fun call =>
      ⟨⟨_, (Registry.memberTexts_ensureAll _ [call]).symm⟩,
        ⟨_, (Registry.initTexts_ensureAll _ [call]).symm⟩⟩
    repeated := fun call asked => lists.ensure_eq (listed asked) }

example :
    ((Registry.empty "UTC").ensureAll
      [.formatter .time, .formatter .date, .formatter .time]).initTexts =
      [("timeFormatter.setTimeZone('UTC');" : Text),
        ("dateFormatter.setTimeZone('UTC');" : Text)] := by
  decide

end RowExpr
