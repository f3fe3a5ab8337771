/-!
# Records

Values kept under names, in the order in which the names were first given.
-/

namespace Descriptor

/-- Entries in their order. -/
structure Record (α : Type) where
  entries : List (String × α)
  deriving DecidableEq

namespace Record

variable {α : Type}

/-- The record without entries. -/
def empty : Record α := ⟨[]⟩

instance : Inhabited (Record α) := ⟨empty⟩

/-- The value under `name` among `entries`. -/
def find? (name : String) : (entries : List (String × α)) → Option α
  | [] => none
  | (other, value) :: rest => if other == name then some value else find? name rest

/-- The entries with `value` under `name`: in its place if there is one, and else at the end. -/
def put (name : String) (value : α) : (entries : List (String × α)) → List (String × α)
  | [] => [(name, value)]
  | (other, old) :: rest =>
      if other == name then (other, value) :: rest else (other, old) :: put name value rest

/-- The value under `name`. -/
def get? (record : Record α) (name : String) : Option α :=
  find? name record.entries

/-- The record with `value` under `name`.  A new name comes last. -/
def insert (record : Record α) (name : String) (value : α) : Record α :=
  ⟨put name value record.entries⟩

/-- The value that was under `name`, and the record with `value` there. -/
def exchange (record : Record α) (name : String) (value : α) : Option α × Record α :=
  (record.get? name, record.insert name value)

/-- The record with all of `entries` inserted, in their order. -/
def insertAll (record : Record α) (entries : List (String × α)) : Record α :=
  entries.foldl (fun record entry => record.insert entry.1 entry.2) record

/-- The record made by inserting entries in their order. -/
def ofList (entries : List (String × α)) : Record α :=
  empty.insertAll entries

/-- The names, in the order in which they were first given. -/
def names (record : Record α) : List String :=
  record.entries.map Prod.fst

/-- How many entries there are. -/
def size (record : Record α) : Nat :=
  record.entries.length

/-! ## Looking up what was inserted -/

@[simp]
theorem get?_empty (name : String) : (empty : Record α).get? name = none :=
  rfl

@[simp]
theorem get?_insert_self (record : Record α) (name : String) (value : α) :
    (record.insert name value).get? name = some value := by
  simp only [get?, insert]
  induction record.entries with
  | nil => simp [put, find?]
  | cons entry rest ih =>
      simp only [put]
      split <;> simp_all [find?]

theorem get?_insert_of_ne (record : Record α) {name other : String} (value : α)
    (ne : other ≠ name) : (record.insert name value).get? other = record.get? other := by
  simp only [get?, insert]
  induction record.entries with
  | nil => simp [put, find?, ne.symm]
  | cons entry rest ih =>
      simp only [put]
      split
      · rename_i same
        rw [beq_iff_eq] at same
        simp [find?, same, ne.symm]
      · simp only [find?, ih]

end Record

end Descriptor
