import RowExpr.Proofs.Number.Layout
import RowExpr.Proofs.Text.Integer

/-!
Decimal numbers in texts.

A decimal number is written as an optional sign, `+` (43) or `-` (45), digits that may have a
point (46) before, among or after them, and an optional exponent after an `e` (101) or `E` (69)
(`Numeral.Expresses`). Reading takes as many digits as it can at each place and never goes back,
and still accepts exactly these texts. What it gives is the number nearest to the decimal that
is written (`Numeral.decimal?_eq_some`).
-/

namespace RowExpr.Numeral

/-! ## The grammar -/

/-- At least one digit, and nothing else. -/
def IsDigits (t : Text) : Prop := t ≠ [] ∧ ∀ u ∈ t, Text.isDigit u = true

/-- A sign or nothing; `true` for a minus. -/
inductive Sign : Text → Bool → Prop
  | absent : Sign [] false
  | plus : Sign [43] false
  | minus : Sign [45] true

/-- Digits with a decimal point, those before it and those after it. The point may be missing, or
the digits on one side of it. -/
inductive Pointed : Text → Text → Text → Prop
  | whole {ds : Text} : IsDigits ds → Pointed ds ds []
  | closed {ds : Text} : IsDigits ds → Pointed (ds ++ [46]) ds []
  | between {ds fs : Text} : IsDigits ds → IsDigits fs → Pointed (ds ++ 46 :: fs) ds fs
  | opened {fs : Text} : IsDigits fs → Pointed (46 :: fs) [] fs

/-- An exponent part or nothing, and the exponent. -/
inductive Exponent : Text → Int → Prop
  | absent : Exponent [] 0
  | marked {mark : UInt16} {s ds : Text} {neg : Bool} : mark = 101 ∨ mark = 69 →
    Sign s neg → IsDigits ds →
    Exponent (mark :: (s ++ ds))
      (if neg then -(Text.digitsValue ds : Int) else Text.digitsValue ds)

/-- A decimal number as it is written, its sign and the decimal it denotes. -/
inductive Expresses : Text → Bool → Decimal → Prop
  | mk {s digits whole fraction exponent : Text} {neg : Bool} {e : Int} :
    Sign s neg → Pointed digits whole fraction → Exponent exponent e →
    Expresses (s ++ digits ++ exponent) neg
      ⟨Text.digitsValue (whole ++ fraction), e - fraction.length⟩

/-- The text is a decimal number. -/
def IsDecimal (t : Text) : Prop := ∃ neg d, Expresses t neg d

/-! ## Reading the parts -/

section Parts

variable {t rest s ds whole middle fs tail : Text} {neg : Bool} {e : Int}

/-- What no digit goes on with is not gone on with by digits. -/
theorem IsDigits.stops (digits : IsDigits ds) {p : UInt16 → Bool}
    (other : ∀ u, Text.isDigit u = true → p u = false) (rest : Text) :
    Text.Stops p (ds ++ rest) := by
  rcases ds with _ | ⟨u, ds⟩
  · exact absurd rfl digits.1
  · exact Text.stops_cons.2 (other u (digits.2 u List.mem_cons_self))

/-- All digits are taken, up to what is none. -/
theorem digits_run (all : ∀ u ∈ ds, Text.isDigit u = true)
    (stops : Text.Stops Text.isDigit rest) : digits (ds ++ rest) = (ds, rest) := by
  rw [digits, Text.takeWhile_run all stops, Text.dropWhile_run all stops]

/-- What is taken are digits, and the text is put together from them and the rest. -/
theorem of_digits (before : digits t = (ds, rest)) :
    t = ds ++ rest ∧ ∀ u ∈ ds, Text.isDigit u = true := by
  cases before
  exact ⟨List.takeWhile_append_dropWhile.symm, fun u listed => List.mem_takeWhile_imp listed⟩

/-- The units of a sign. -/
def isSign (u : UInt16) : Bool := u == 43 || u == 45

theorem isSign_of_isDigit {u : UInt16} (digit : Text.isDigit u = true) : isSign u = false := by
  rw [isSign, Bool.or_eq_false_iff, beq_eq_false_iff_ne, beq_eq_false_iff_ne]
  constructor
  · intro plus
    subst plus
    cases digit
  · intro minus
    subst minus
    cases digit

/-- A sign is taken if there is one; what follows is not a second sign. -/
theorem Sign.read (signed : Sign s neg) (stops : Text.Stops isSign rest) :
    sign (s ++ rest) = (neg, rest) := by
  cases signed with
  | absent =>
    rcases sign_cases rest with ⟨_, rfl, -⟩ | ⟨_, rfl, -⟩ | unsigned
    · cases Text.stops_cons.1 stops
    · cases Text.stops_cons.1 stops
    · exact unsigned
  | plus => rfl
  | minus => rfl

theorem of_sign (signed : sign t = (neg, rest)) : ∃ s, Sign s neg ∧ t = s ++ rest := by
  rcases sign_cases t with ⟨_, rfl, found⟩ | ⟨_, rfl, found⟩ | found
  · cases found.symm.trans signed
    exact ⟨_, .plus, rfl⟩
  · cases found.symm.trans signed
    exact ⟨_, .minus, rfl⟩
  · cases found.symm.trans signed
    exact ⟨_, .absent, rfl⟩

/-- The units that digits with a point may begin with. -/
def isPointed (u : UInt16) : Bool := Text.isDigit u || u == 46

/-- Digits with a point are taken as a whole in front of anything that cannot go on with them. -/
theorem Pointed.read (written : Pointed t whole fs) (stops : Text.Stops isPointed rest) :
    ∃ middle, digits (t ++ rest) = (whole, middle) ∧ fraction middle = (fs, rest) := by
  have noDigit : Text.Stops Text.isDigit rest :=
    fun u first => (Bool.or_eq_false_iff.1 (stops u first)).1
  have noPoint : Text.Stops (· == 46) rest :=
    fun u first => (Bool.or_eq_false_iff.1 (stops u first)).2
  have point (more : Text) : Text.Stops Text.isDigit (46 :: more) := Text.stops_cons.2 rfl
  cases written with
  | whole before => exact ⟨rest, digits_run before.2 noDigit, fraction_of_stops noPoint⟩
  | closed before =>
    refine ⟨46 :: rest, ?_, ?_⟩
    · rw [List.append_assoc, List.singleton_append, digits_run before.2 (point rest)]
    · rw [fraction_point]
      exact digits_run (List.forall_mem_nil _) noDigit
  | between before after =>
    refine ⟨46 :: (fs ++ rest), ?_, ?_⟩
    · rw [List.append_assoc, List.cons_append, digits_run before.2 (point _)]
    · rw [fraction_point, digits_run after.2 noDigit]
  | opened after =>
    refine ⟨46 :: (fs ++ rest), ?_, ?_⟩
    · rw [List.cons_append]
      exact digits_run (List.forall_mem_nil _) (point _)
    · rw [fraction_point, digits_run after.2 noDigit]

/-- What the reader takes for digits with a point are such digits, if there is any of them. -/
theorem of_pointed (before : digits t = (whole, middle)) (after : fraction middle = (fs, tail))
    (some : ¬ (whole = [] ∧ fs = [])) : ∃ front, Pointed front whole fs ∧ t = front ++ tail := by
  obtain ⟨rfl, isWhole⟩ := of_digits before
  unfold fraction at after
  split at after
  · next more =>
    obtain ⟨rfl, isFraction⟩ := of_digits after
    by_cases noWhole : whole = []
    · subst noWhole
      exact ⟨46 :: fs, .opened ⟨fun none => some ⟨rfl, none⟩, isFraction⟩, rfl⟩
    · by_cases noFraction : fs = []
      · subst noFraction
        exact ⟨whole ++ [46], .closed ⟨noWhole, isWhole⟩,
          (List.append_assoc whole [46] tail).symm⟩
      · exact ⟨whole ++ 46 :: fs, .between ⟨noWhole, isWhole⟩ ⟨noFraction, isFraction⟩,
          (List.append_assoc whole (46 :: fs) tail).symm⟩
  · cases after
    exact ⟨whole, .whole ⟨fun none => some ⟨none, rfl⟩, isWhole⟩, rfl⟩

/-- An exponent is a mark, a sign and digits up to the end of the text. -/
theorem exponent?_cons {mark : UInt16} (signed : sign t = (neg, ds)) :
    exponent? (mark :: t) = if (mark = 101 ∨ mark = 69) ∧ ds ≠ [] ∧ ds.all Text.isDigit then
      some (if neg then -(Text.digitsValue ds : Int) else Text.digitsValue ds) else none := by
  rw [exponent?, signed]

/-- The reader of exponents accepts exactly what is written as one. -/
theorem exponent?_eq_some : exponent? t = some e ↔ Exponent t e := by
  constructor
  · intro read
    rcases t with _ | ⟨mark, t⟩
    · cases read
      exact .absent
    · rcases signed : sign t with ⟨neg, ds⟩
      obtain ⟨s, isSign, rfl⟩ := of_sign signed
      rw [exponent?_cons signed, Option.ite_none_right_eq_some] at read
      obtain ⟨⟨isMark, some, all⟩, value⟩ := read
      cases value
      exact .marked isMark isSign ⟨some, List.all_eq_true.1 all⟩
  · intro written
    cases written with
    | absent => rfl
    | marked isMark isSign digits =>
      have stops := digits.stops (fun _ => isSign_of_isDigit) []
      rw [List.append_nil] at stops
      rw [exponent?_cons (isSign.read stops)]
      exact if_pos ⟨isMark, digits.1, List.all_eq_true.2 digits.2⟩

end Parts

/-! ## Reading decimal numbers -/

section Reading

variable {t rest whole middle fs tail : Text} {neg : Bool} {d : Decimal} {x : Double}

/-- What reading does once the parts are known. -/
theorem decimal?_of_parts (signed : sign t = (neg, rest))
    (before : digits rest = (whole, middle)) (after : fraction middle = (fs, tail)) :
    decimal? t = if whole = [] ∧ fs = [] then none else
      (exponent? tail).map fun e =>
        Double.ofDecimal neg ⟨Text.digitsValue (whole ++ fs), e - fs.length⟩ := by
  rw [decimal?, signed]
  dsimp only
  rw [before]
  dsimp only
  rw [after]

/-- An exponent goes on with neither the digits before it nor a point. -/
theorem Exponent.stops {e : Int} (written : Exponent t e) : Text.Stops isPointed t := by
  cases written with
  | absent => exact Text.stops_nil _
  | marked isMark _ _ =>
    rcases isMark with rfl | rfl
    · exact Text.stops_cons.2 rfl
    · exact Text.stops_cons.2 rfl

/-- The digits of a number go on with no sign. -/
theorem Pointed.stops (written : Pointed t whole fs) (rest : Text) :
    Text.Stops isSign (t ++ rest) := by
  cases written with
  | whole before => exact before.stops (fun _ => isSign_of_isDigit) rest
  | closed before =>
    rw [List.append_assoc]
    exact before.stops (fun _ => isSign_of_isDigit) _
  | between before _ =>
    rw [List.append_assoc]
    exact before.stops (fun _ => isSign_of_isDigit) _
  | opened _ => exact Text.stops_cons.2 rfl

/-- There is a digit on one side of the point. -/
theorem Pointed.some (written : Pointed t whole fs) : ¬ (whole = [] ∧ fs = []) := by
  intro none
  cases written with
  | whole before => exact before.1 none.1
  | closed before => exact before.1 none.1
  | between before _ => exact before.1 none.1
  | opened after => exact after.1 none.2

/-- What is written as a decimal number is read, as the nearest number. -/
theorem Expresses.decimal? (written : Expresses t neg d) :
    Numeral.decimal? t = .some (Double.ofDecimal neg d) := by
  obtain ⟨isSign, pointed, exponent⟩ := written
  obtain ⟨middle, before, after⟩ := pointed.read exponent.stops
  rw [List.append_assoc, decimal?_of_parts (isSign.read (pointed.stops _)) before after,
    if_neg pointed.some, exponent?_eq_some.2 exponent, Option.map_some]

/-- What is read is written as a decimal number: the reader accepts nothing else. -/
theorem exists_expresses (read : Numeral.decimal? t = some x) :
    ∃ neg d, Expresses t neg d ∧ x = Double.ofDecimal neg d := by
  rcases signed : sign t with ⟨neg, rest⟩
  rcases before : digits rest with ⟨whole, middle⟩
  rcases after : fraction middle with ⟨fs, tail⟩
  rw [decimal?_of_parts signed before after, Option.ite_none_left_eq_some] at read
  obtain ⟨some, read⟩ := read
  obtain ⟨e, exponent, rfl⟩ := Option.map_eq_some_iff.1 read
  obtain ⟨s, isSign, rfl⟩ := of_sign signed
  obtain ⟨front, pointed, rfl⟩ := of_pointed before after some
  refine ⟨neg, _, ?_, rfl⟩
  rw [← List.append_assoc]
  exact .mk isSign pointed (exponent?_eq_some.1 exponent)

/-- Reading accepts the grammar, and gives the number nearest to what is written. -/
theorem decimal?_eq_some :
    Numeral.decimal? t = some x ↔ ∃ neg d, Expresses t neg d ∧ x = Double.ofDecimal neg d := by
  constructor
  · exact exists_expresses
  · intro expressed
    obtain ⟨neg, d, written, rfl⟩ := expressed
    exact written.decimal?

/-- A text is read exactly if it is a decimal number. -/
theorem isSome_decimal? : (Numeral.decimal? t).isSome = true ↔ IsDecimal t := by
  rw [Option.isSome_iff_exists]
  constructor
  · intro read
    obtain ⟨x, read⟩ := read
    obtain ⟨neg, d, written, -⟩ := decimal?_eq_some.1 read
    exact ⟨neg, d, written⟩
  · intro decimal
    obtain ⟨neg, d, written⟩ := decimal
    exact ⟨_, written.decimal?⟩

instance : DecidablePred IsDecimal := fun _ => decidable_of_iff _ isSome_decimal?

/-- An integer is a decimal number without point and exponent, and both readings of it are the
same. -/
theorem decimal?_of_integer? (read : Numeral.integer? t = some x) :
    Numeral.decimal? t = some x := by
  rcases signed : sign t with ⟨neg, ds⟩
  obtain ⟨some, all, rfl⟩ := (integer?_eq_some signed).1 read
  obtain ⟨s, isSign, rfl⟩ := of_sign signed
  have written := Expresses.mk isSign (.whole ⟨some, all⟩) .absent
  rw [List.append_nil, List.append_nil, List.length_nil, Int.natCast_zero,
    Int.sub_zero] at written
  exact written.decimal?

end Reading

/-! ## Units -/

section Units

variable {t : Text}

theorem IsDigits.exists_last (digits : IsDigits t) :
    ∃ front u, t = front ++ [u] ∧ Text.isDigit u = true := by
  refine ⟨t.dropLast, t.getLast digits.1, (List.dropLast_concat_getLast digits.1).symm, ?_⟩
  exact digits.2 _ (List.getLast_mem digits.1)

/-- The units that a decimal number may have besides digits: the signs, the point and the marks of
an exponent. -/
def marks : Text := [43, 45, 46, 69, 101]

/-- A decimal number has digits and a few marks, and no other unit. -/
theorem Sign.units {neg : Bool} (written : Sign t neg) :
    ∀ u ∈ t, Text.isDigit u = true ∨ u ∈ marks := by
  cases written with
  | absent => exact List.forall_mem_nil _
  | plus => exact List.forall_mem_singleton.2 (.inr (by decide))
  | minus => exact List.forall_mem_singleton.2 (.inr (by decide))

theorem Pointed.units {whole fs : Text} (written : Pointed t whole fs) :
    ∀ u ∈ t, Text.isDigit u = true ∨ u ∈ marks := by
  have point : (46 : UInt16) ∈ marks := by decide
  cases written with
  | whole before => exact fun u listed => .inl (before.2 u listed)
  | closed before =>
    exact List.forall_mem_append.2 ⟨fun u listed => .inl (before.2 u listed),
      List.forall_mem_singleton.2 (.inr point)⟩
  | between before after =>
    refine List.forall_mem_append.2 ⟨fun u listed => .inl (before.2 u listed), ?_⟩
    exact List.forall_mem_cons.2 ⟨.inr point, fun u listed => .inl (after.2 u listed)⟩
  | opened after =>
    exact List.forall_mem_cons.2 ⟨.inr point, fun u listed => .inl (after.2 u listed)⟩

theorem Exponent.units {e : Int} (written : Exponent t e) :
    ∀ u ∈ t, Text.isDigit u = true ∨ u ∈ marks := by
  cases written with
  | absent => exact List.forall_mem_nil _
  | marked isMark isSign digits =>
    refine List.forall_mem_cons.2 ⟨.inr ?_, List.forall_mem_append.2 ⟨isSign.units, ?_⟩⟩
    · rcases isMark with rfl | rfl
      · decide
      · decide
    · exact fun u listed => .inl (digits.2 u listed)

/-- Without an exponent, a decimal number ends with a digit or with a point. -/
theorem Pointed.exists_last {whole fs : Text} (written : Pointed t whole fs) :
    ∃ front u, t = front ++ [u] ∧ (Text.isDigit u = true ∨ u = 46) := by
  cases written with
  | whole before =>
    obtain ⟨front, u, rfl, digit⟩ := before.exists_last
    exact ⟨front, u, rfl, .inl digit⟩
  | closed before => exact ⟨_, 46, rfl, .inr rfl⟩
  | between before after =>
    obtain ⟨front, u, rfl, digit⟩ := after.exists_last
    exact ⟨whole ++ 46 :: front, u, (List.append_assoc whole (46 :: front) [u]).symm, .inl digit⟩
  | opened after =>
    obtain ⟨front, u, rfl, digit⟩ := after.exists_last
    exact ⟨46 :: front, u, rfl, .inl digit⟩

theorem Pointed.exists_digit {whole fs : Text} (written : Pointed t whole fs) :
    ∃ u ∈ t, Text.isDigit u = true := by
  have first {ds : Text} (digits : IsDigits ds) : ∃ u ∈ ds, Text.isDigit u = true :=
    ⟨_, List.getLast_mem digits.1, digits.2 _ (List.getLast_mem digits.1)⟩
  cases written with
  | whole before => exact first before
  | closed before =>
    obtain ⟨u, listed, digit⟩ := first before
    exact ⟨u, List.mem_append_left _ listed, digit⟩
  | between before _ =>
    obtain ⟨u, listed, digit⟩ := first before
    exact ⟨u, List.mem_append_left _ listed, digit⟩
  | opened after =>
    obtain ⟨u, listed, digit⟩ := first after
    exact ⟨u, List.mem_cons_of_mem _ listed, digit⟩

/-- A decimal number has a digit, no units but digits, signs, points and exponent marks, and does
not end with a sign or a mark. -/
theorem IsDecimal.units (decimal : IsDecimal t) :
    (∃ u ∈ t, Text.isDigit u = true) ∧ (∀ u ∈ t, Text.isDigit u = true ∨ u ∈ marks) ∧
      ∃ front u, t = front ++ [u] ∧ (Text.isDigit u = true ∨ u = 46) := by
  obtain ⟨neg, d, isSign, pointed, exponent⟩ := decimal
  obtain ⟨u, listed, digit⟩ := pointed.exists_digit
  refine ⟨⟨u, List.mem_append_left _ (List.mem_append_right _ listed), digit⟩, ?_, ?_⟩
  · exact List.forall_mem_append.2 ⟨List.forall_mem_append.2 ⟨isSign.units, pointed.units⟩,
      exponent.units⟩
  · cases exponent with
    | absent =>
      obtain ⟨front, u, rfl, last⟩ := pointed.exists_last
      rw [List.append_nil, ← List.append_assoc]
      exact ⟨_, u, rfl, last⟩
    | marked _ _ digits =>
      obtain ⟨front, u, rfl, digit⟩ := digits.exists_last
      rw [← List.append_assoc, ← List.cons_append, ← List.append_assoc]
      exact ⟨_, u, rfl, .inl digit⟩

end Units

end RowExpr.Numeral
