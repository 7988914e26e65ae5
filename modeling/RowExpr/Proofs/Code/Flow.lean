import RowExpr.Proofs.Code.Identifier
import RowExpr.Proofs.Generation.Binding

/-!
The flow of names through code.

A `Flow` is what is known at a point of a block: the names that hold a value there, and
those that have been reserved and may be assigned. `Block.after` carries it through a
block; where two ways meet only what both have assigned counts, and what was declared
inside a nested block is forgotten. A block is scoped if it reads only names that
hold a value by then, assigns only reserved names and declares only new ones
(`Block.Scoped`).
-/

namespace RowExpr

/-! ## Names in terms -/

/-- The names that a term reads. -/
def Term.names : Term → List Name
  | .name x => [x]
  | .paren t => t.names
  | .ascribe t _ => t.names
  | .unary _ t => t.names
  | .binary _ left right => left.names ++ right.names
  | .cond test yes no => test.names ++ (yes.names ++ no.names)
  | .index t _ => t.names
  | .member t _ => t.names
  | .invoke t _ => t.names
  | .call _ t => t.names
  | .call₂ _ left right => left.names ++ right.names
  | .charCode t => t.names
  | .tail t start => t.names ++ start.names
  | .slice t start stop => t.names ++ (start.names ++ stop.names)
  | .format formatter t => formatter :: t.names
  | .parse formatter t => formatter :: t.names
  | .undefined => []
  | .null => []
  | .bool _ => []
  | .number _ => []
  | .fractional _ => []
  | .text _ => []
  | .singleText _ => []
  | .nullUnit => []

/-- What a function is a member of. -/
def Function.root : Function → Text
  | .trunc => "Math"
  | .abs => "Math"
  | .single => "Math"
  | .string => "String"
  | .charOf => "String"
  | .makeDate => "Date"
  | .divisor => "runtime"
  | .epochMillis => "runtime"
  | .valueOf _ => "runtime"

def Function₂.root : Function₂ → Text
  | .wordProduct => "Math"
  | .equals => "runtime"

/-- The identifier that a number is written with, if it has no digits. -/
def Double.outside : Double → List Text
  | .nan => ["NaN"]
  | .infinite _ => ["Infinity"]
  | .finite _ _ => []

/-- What a term refers to outside of the unit. -/
def Term.outside : Term → List Text
  | .undefined => ["undefined"]
  | .number x => x.outside
  | .fractional x => x.outside
  | .paren t => t.outside
  | .ascribe t _ => t.outside
  | .unary _ t => t.outside
  | .binary _ left right => left.outside ++ right.outside
  | .cond test yes no => test.outside ++ (yes.outside ++ no.outside)
  | .index t _ => t.outside
  | .member t _ => t.outside
  | .invoke t _ => t.outside
  | .call f t => f.root :: t.outside
  | .call₂ f left right => f.root :: (left.outside ++ right.outside)
  | .charCode t => t.outside
  | .tail t start => t.outside ++ start.outside
  | .slice t start stop => t.outside ++ (start.outside ++ stop.outside)
  | .format _ t => t.outside
  | .parse _ t => t.outside
  | .name _ => []
  | .null => []
  | .bool _ => []
  | .text _ => []
  | .singleText _ => []
  | .nullUnit => []

/-- Terms refer to nothing outside of the unit but these few names. -/
theorem Term.outside_subset (t : Term) : t.outside ⊆ Name.surroundings := by
  induction t with
  | number x | fractional x =>
    cases x with
    | nan => exact List.cons_subset.2 ⟨by decide, List.nil_subset _⟩
    | infinite _ => exact List.cons_subset.2 ⟨by decide, List.nil_subset _⟩
    | finite _ _ => exact List.nil_subset _
  | undefined => exact List.cons_subset.2 ⟨by decide, List.nil_subset _⟩
  | paren t ih | ascribe t _ ih | unary _ t ih | index t _ ih | member t _ ih | invoke t _ ih
  | charCode t ih
  | format _ t ih | parse _ t ih => exact ih
  | binary _ left right ihl ihr | tail left right ihl ihr => exact List.append_subset.2 ⟨ihl, ihr⟩
  | cond _ _ _ iha ihb ihc | slice _ _ _ iha ihb ihc =>
    exact List.append_subset.2 ⟨iha, List.append_subset.2 ⟨ihb, ihc⟩⟩
  | call f t ih =>
    refine List.cons_subset.2 ⟨?_, ih⟩
    cases f <;> simp [Function.root, Name.surroundings]
  | call₂ f left right ihl ihr =>
    refine List.cons_subset.2 ⟨?_, List.append_subset.2 ⟨ihl, ihr⟩⟩
    cases f <;> simp [Function₂.root, Name.surroundings]
  | name | null | bool | text | singleText | nullUnit => exact List.nil_subset _

/-! ## Flows -/

/-- What is known at a point of a block: which names hold a value, and which have been
reserved, whether they hold one or not. -/
structure Flow where
  assigned : List Name
  reserved : List Name

namespace Flow

def start : Flow := ⟨[], []⟩

/-- The names that are in scope. -/
def bound (v : Flow) : List Name := v.assigned ++ v.reserved

def assign (v : Flow) (x : Name) : Flow := { v with assigned := x :: v.assigned }

def reserve (v : Flow) (x : Name) : Flow := { v with reserved := x :: v.reserved }

/-- What is known where two ways meet that have parted at `v`: what both have assigned, as
far as it was in scope before. -/
def join (v yes no : Flow) : Flow :=
  { v with assigned := yes.assigned.filter fun x => x ∈ no.assigned ∧ x ∈ v.bound }

@[simp] theorem mem_bound {v : Flow} {x : Name} : x ∈ v.bound ↔ x ∈ v.assigned ∨ x ∈ v.reserved :=
  List.mem_append

@[simp] theorem mem_assigned_assign {v : Flow} {x y : Name} :
    y ∈ (v.assign x).assigned ↔ y = x ∨ y ∈ v.assigned :=
  List.mem_cons

@[simp] theorem reserved_assign (v : Flow) (x : Name) : (v.assign x).reserved = v.reserved := rfl

@[simp] theorem assigned_reserve (v : Flow) (x : Name) : (v.reserve x).assigned = v.assigned :=
  rfl

@[simp] theorem mem_reserved_reserve {v : Flow} {x y : Name} :
    y ∈ (v.reserve x).reserved ↔ y = x ∨ y ∈ v.reserved :=
  List.mem_cons

@[simp] theorem mem_assigned_join {v yes no : Flow} {x : Name} :
    x ∈ (v.join yes no).assigned ↔ x ∈ yes.assigned ∧ x ∈ no.assigned ∧ x ∈ v.bound := by
  simp [join]

@[simp] theorem reserved_join (v yes no : Flow) : (v.join yes no).reserved = v.reserved := rfl

end Flow

/-! ## Blocks -/

mutual

/-- What is known after a statement that has ended without a fault. -/
def Statement.after : Statement → Flow → Flow
  | .declare x _ _, v => v.assign x
  | .reserve x _, v => v.reserve x
  | .assign x _, v => v.assign x
  | .branch _ yes no, v => v.join (Block.after yes v) (Block.after no v)
  | .attempt x _ otherwise, v => v.join (v.assign x) (Block.after otherwise v)

/-- What is known after a block that has ended without a fault. -/
def Block.after : Block → Flow → Flow
  | [], v => v
  | statement :: rest, v => Block.after rest (statement.after v)

end

mutual

/-- Every name that a statement reads holds a value, every name that it assigns is
reserved, and every name that it declares is new. -/
def Statement.Scoped : Statement → Flow → Prop
  | .declare x _ value, v => value.names ⊆ v.assigned ∧ x ∉ v.bound
  | .reserve x _, v => x ∉ v.bound
  | .assign x value, v => value.names ⊆ v.assigned ∧ x ∈ v.reserved
  | .branch test yes no, v => test.names ⊆ v.assigned ∧ Block.Scoped yes v ∧ Block.Scoped no v
  -- The handler cannot rely on the attempt, which may have stopped before it assigned.
  | .attempt x value otherwise, v =>
    value.names ⊆ v.assigned ∧ x ∈ v.reserved ∧ Block.Scoped otherwise v

/-- Every statement is scoped where it stands. -/
def Block.Scoped : Block → Flow → Prop
  | [], _ => True
  | statement :: rest, v => statement.Scoped v ∧ Block.Scoped rest (statement.after v)

end

@[simp] theorem Block.after_nil (v : Flow) : Block.after [] v = v := by
  rw [Block.after]

@[simp] theorem Block.after_cons (statement : Statement) (rest : Block) (v : Flow) :
    Block.after (statement :: rest) v = Block.after rest (statement.after v) := by
  rw [Block.after]

/-- What is known after a block is known where the next begins. -/
@[simp] theorem Block.after_append (first rest : Block) (v : Flow) :
    Block.after (first ++ rest) v = Block.after rest (Block.after first v) := by
  induction first generalizing v with
  | nil => simp
  | cons statement first ih => simp [ih]

@[simp] theorem Block.scoped_nil (v : Flow) : Block.Scoped [] v := by
  rw [Block.Scoped]
  trivial

@[simp] theorem Block.scoped_cons (statement : Statement) (rest : Block) (v : Flow) :
    Block.Scoped (statement :: rest) v ↔ statement.Scoped v ∧
      Block.Scoped rest (statement.after v) := by
  rw [Block.Scoped]

/-- Blocks in a row are in scope if each is where it begins. -/
@[simp] theorem Block.scoped_append (first rest : Block) (v : Flow) :
    Block.Scoped (first ++ rest) v ↔ Block.Scoped first v ∧
      Block.Scoped rest (Block.after first v) := by
  induction first generalizing v with
  | nil => simp
  | cons statement first ih => simp [ih, and_assoc]

/-! ## What code does to a flow -/

mutual

/-- A name that has a value keeps one. -/
theorem Statement.assigned_subset_after (statement : Statement) (v : Flow) :
    v.assigned ⊆ (statement.after v).assigned := by
  intro x assigned
  cases statement with
  | declare y _ _ | assign y _ => simp [Statement.after, assigned]
  | reserve y _ => simpa [Statement.after] using assigned
  | branch _ yes no =>
    have left := Block.assigned_subset_after yes v assigned
    have right := Block.assigned_subset_after no v assigned
    simp [Statement.after, left, right, assigned]
  | attempt y _ otherwise =>
    have handled := Block.assigned_subset_after otherwise v assigned
    simp [Statement.after, handled, assigned]

/-- A name that holds a value goes on to hold one. -/
theorem Block.assigned_subset_after (b : Block) (v : Flow) :
    v.assigned ⊆ (b.after v).assigned := by
  cases b with
  | nil => simp
  | cons statement rest =>
    rw [Block.after_cons]
    exact List.Subset.trans (Statement.assigned_subset_after statement v)
      (Block.assigned_subset_after rest (statement.after v))

end

/-- A reserved name stays reserved. -/
theorem Block.reserved_subset_after (b : Block) (v : Flow) :
    v.reserved ⊆ (b.after v).reserved := by
  induction b generalizing v with
  | nil => simp
  | cons statement rest ih =>
    rw [Block.after_cons]
    refine List.Subset.trans (fun x reserved => ?_) (ih _)
    cases statement <;> simp [Statement.after, reserved]

/-- Nothing comes into scope but what is declared. -/
theorem Statement.bound_after {statement : Statement} {v : Flow} (valid : statement.Scoped v)
    {x : Name} (bound : x ∈ (statement.after v).bound) :
    x ∈ v.bound ∨ x ∈ statement.declared := by
  cases statement with
  | declare y _ _ =>
    simp only [Statement.after, Flow.mem_bound, Flow.mem_assigned_assign,
      Flow.reserved_assign] at bound
    rcases bound with (same | old) | old
    · exact .inr (by simp [Statement.declared, same])
    · exact .inl (by simp [old])
    · exact .inl (by simp [old])
  | reserve y _ =>
    simp only [Statement.after, Flow.mem_bound, Flow.mem_reserved_reserve,
      Flow.assigned_reserve] at bound
    rcases bound with old | same | old
    · exact .inl (by simp [old])
    · exact .inr (by simp [Statement.declared, same])
    · exact .inl (by simp [old])
  | assign y _ =>
    rw [Statement.Scoped] at valid
    simp only [Statement.after, Flow.mem_bound, Flow.mem_assigned_assign,
      Flow.reserved_assign] at bound
    rcases bound with (rfl | old) | old
    · exact .inl (by simp [valid.2])
    · exact .inl (by simp [old])
    · exact .inl (by simp [old])
  | branch _ yes no | attempt _ _ otherwise =>
    simp only [Statement.after, Flow.mem_bound, Flow.mem_assigned_join,
      Flow.reserved_join] at bound
    rcases bound with ⟨-, -, old⟩ | old
    · exact .inl (by simpa using old)
    · exact .inl (by simp [old])

/-- A block brings into scope what it declares. -/
theorem Block.bound_after {b : Block} {v : Flow} (valid : b.Scoped v) {x : Name}
    (bound : x ∈ (b.after v).bound) : x ∈ v.bound ∨ x ∈ b.declared := by
  induction b generalizing v with
  | nil => exact .inl (by simpa using bound)
  | cons statement rest ih =>
    rw [Block.scoped_cons] at valid
    rw [Block.after_cons] at bound
    rw [Block.declared_cons, List.mem_append]
    rcases ih valid.2 bound with bound | declared
    · exact (Statement.bound_after valid.1 bound).imp id .inl
    · exact .inr (.inr declared)

/-! ## Mentioned names -/

mutual

/-- The names that occur in a statement. -/
def Statement.mentions : Statement → List Name
  | .declare x _ value => x :: value.names
  | .reserve x _ => [x]
  | .assign x value => x :: value.names
  | .branch test yes no => test.names ++ (Block.mentions yes ++ Block.mentions no)
  | .attempt x value otherwise => x :: (value.names ++ Block.mentions otherwise)

/-- The names that occur in a block. -/
def Block.mentions : Block → List Name
  | [] => []
  | statement :: rest => statement.mentions ++ Block.mentions rest

end

mutual

/-- A statement in scope mentions only what is in scope, and what it declares itself. -/
theorem Statement.of_mem_mentions {statement : Statement} {v : Flow}
    (valid : statement.Scoped v) {x : Name} (mentioned : x ∈ statement.mentions) :
    x ∈ v.bound ∨ x ∈ statement.declared := by
  cases statement with
  | declare y _ value =>
    rw [Statement.Scoped] at valid
    rw [Statement.mentions, List.mem_cons] at mentioned
    rcases mentioned with same | read
    · exact .inr (by simp [Statement.declared, same])
    · exact .inl (by simp [valid.1 read])
  | reserve y _ => exact .inr (by simpa [Statement.mentions, Statement.declared] using mentioned)
  | assign y value =>
    rw [Statement.Scoped] at valid
    rw [Statement.mentions, List.mem_cons] at mentioned
    rcases mentioned with rfl | read
    · exact .inl (by simp [valid.2])
    · exact .inl (by simp [valid.1 read])
  | branch test yes no =>
    rw [Statement.Scoped] at valid
    rw [Statement.mentions, List.mem_append, List.mem_append] at mentioned
    rw [Statement.declared, List.mem_append]
    rcases mentioned with read | inside | inside
    · exact .inl (by simp [valid.1 read])
    · exact (Block.of_mem_mentions valid.2.1 inside).imp id .inl
    · exact (Block.of_mem_mentions valid.2.2 inside).imp id .inr
  | attempt y value otherwise =>
    rw [Statement.Scoped] at valid
    rw [Statement.mentions, List.mem_cons, List.mem_append] at mentioned
    rw [Statement.declared]
    rcases mentioned with rfl | read | inside
    · exact .inl (by simp [valid.2.1])
    · exact .inl (by simp [valid.1 read])
    · exact Block.of_mem_mentions valid.2.2 inside

/-- A scoped block mentions what is in scope and what it declares itself. -/
theorem Block.of_mem_mentions {b : Block} {v : Flow} (valid : b.Scoped v) {x : Name}
    (mentioned : x ∈ b.mentions) : x ∈ v.bound ∨ x ∈ b.declared := by
  cases b with
  | nil =>
    rw [Block.mentions] at mentioned
    cases mentioned
  | cons statement rest =>
    rw [Block.scoped_cons] at valid
    rw [Block.mentions, List.mem_append] at mentioned
    rw [Block.declared_cons, List.mem_append]
    rcases mentioned with here | later
    · exact (Statement.of_mem_mentions valid.1 here).imp id .inl
    · rcases Block.of_mem_mentions valid.2 later with bound | declared
      · exact (Statement.bound_after valid.1 bound).imp id .inl
      · exact .inr (.inr declared)

end

end RowExpr
