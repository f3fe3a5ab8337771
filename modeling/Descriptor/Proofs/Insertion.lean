import Descriptor.Proofs.Rendering.Building
import Descriptor.Proofs.Scoping
import Mathlib.Data.Finset.Card

/-!
# Records by their insertions

A record shows of the insertions that made it which names were given, in which order they were given
first, and which value each of them was given last.  `Record.Shows` says this, an insertion behind
the others keeps it, and so every record has it of its history.  Each insertion on the way gives
back what the record shows of the insertions before it: `insertions_in_order`.
-/

namespace Descriptor

namespace Record

variable {α : Type}

/-! ## Insertions one after another -/

/-- Inserts entries in their order, and gives what was under each name until then. -/
def exchangeAll (record : Record α) : (entries : List (String × α)) → List (Option α) × Record α
  | [] => ([], record)
  | (name, value) :: entries =>
      let exchanged := record.exchange name value
      let further := exchanged.2.exchangeAll entries
      (exchanged.1 :: further.1, further.2)

theorem exchangeAll_snd (record : Record α) (entries : List (String × α)) :
    (record.exchangeAll entries).2 = record.insertAll entries := by
  induction entries generalizing record with
  | nil => rfl
  | cons entry entries ih => exact ih (record.insert entry.1 entry.2)

/-- An insertion gives what the insertions before it left under its name. -/
theorem getElem?_exchangeAll (record : Record α) (entries : List (String × α)) (index : Nat) :
    (record.exchangeAll entries).1[index]? =
      entries[index]?.map fun entry => (record.insertAll (entries.take index)).get? entry.1 := by
  induction entries generalizing record index with
  | nil => rfl
  | cons entry entries ih =>
      cases index with
      | zero => rfl
      | succ index => exact ih (record.insert entry.1 entry.2) index

/-! ## What a record shows of its history -/

/-- A record and the insertions that made it. -/
structure Shows (record : Record α) (history : List (String × α)) : Prop where
  mem_names : ∀ name, name ∈ record.names ↔ name ∈ history.map Prod.fst
  ordered : record.names.Pairwise fun name other =>
    (history.map Prod.fst).idxOf name < (history.map Prod.fst).idxOf other
  get? : ∀ name, record.get? name = history.reverse.lookup name

theorem names_insert (record : Record α) (name : String) (value : α) :
    (record.insert name value).names =
      if name ∈ record.names then record.names else record.names ++ [name] := by
  split
  · rename_i member
    have found : record.get? name ≠ none := fun missing => get?_eq_none_iff.mp missing member
    rcases Option.ne_none_iff_exists'.mp found with ⟨old, found⟩
    exact names_insert_of_get?_eq_some found value
  · rename_i absent
    simp only [names, insert, put_of_not_mem absent, List.map_append, List.map_cons, List.map_nil]

theorem shows_empty : (empty : Record α).Shows [] where
  mem_names _ := Iff.rfl
  ordered := .nil
  get? _ := rfl

namespace Shows

variable {record : Record α} {history : List (String × α)}

/-- Further insertions do not change the order of the names that are there. -/
theorem ordered_append (shown : record.Shows history) (further : List String) :
    record.names.Pairwise fun name other =>
      (history.map Prod.fst ++ further).idxOf name <
        (history.map Prod.fst ++ further).idxOf other := by
  refine shown.ordered.imp_of_mem fun {name other} isName isOther before => ?_
  rwa [List.idxOf_append_of_mem ((shown.mem_names name).mp isName),
    List.idxOf_append_of_mem ((shown.mem_names other).mp isOther)]

/-- One more insertion: its name keeps the place that it has, or comes behind all others. -/
theorem insert (shown : record.Shows history) (name : String) (value : α) :
    (record.insert name value).Shows (history ++ [(name, value)]) where
  mem_names other := by
    rw [mem_names_insert, shown.mem_names, List.map_append, List.mem_append, or_comm]
    exact or_congr_right List.mem_singleton.symm
  ordered := by
    rw [List.map_append, List.map_singleton, names_insert]
    have kept := shown.ordered_append [name]
    split
    · exact kept
    · rename_i absent
      -- The new name is found behind the whole history, every other name inside it.
      have isNew : name ∉ history.map Prod.fst := fun member =>
        absent ((shown.mem_names name).mpr member)
      refine List.pairwise_append.mpr ⟨kept, List.pairwise_singleton _ _, ?_⟩
      intro other isOther last isLast
      have isOther := (shown.mem_names other).mp isOther
      rw [List.mem_singleton.mp isLast, List.idxOf_append_of_mem isOther,
        List.idxOf_append_of_notMem isNew]
      exact Nat.lt_add_right _ (List.idxOf_lt_length_iff.mpr isOther)
  get? other := by
    rw [List.reverse_concat, List.lookup_cons]
    by_cases same : other = name
    · rw [same, get?_insert_self, beq_self_eq_true]
    · rw [get?_insert_of_ne record value same, beq_eq_false_iff_ne.mpr same, shown.get?]

theorem nodup (shown : record.Shows history) : record.names.Nodup :=
  shown.ordered.imp fun before => by
    rintro rfl
    exact Nat.lt_irrefl _ before

/-- There are as many entries as there are different names. -/
theorem size (shown : record.Shows history) :
    record.size = (history.map Prod.fst).toFinset.card := by
  have sameNames : record.names.toFinset = (history.map Prod.fst).toFinset :=
    List.toFinset.ext_iff.mpr shown.mem_names
  rw [← sameNames, List.toFinset_card_of_nodup shown.nodup]
  exact (List.length_map Prod.fst).symm

end Shows

/-- A record shows all insertions that made it, by induction on the last one. -/
theorem shows_ofList (history : List (String × α)) : (ofList history).Shows history := by
  induction history using List.reverseRecOn with
  | nil => exact shows_empty
  | append_singleton history entry ih =>
      rw [ofList, insertAll, List.foldl_concat]
      exact ih.insert entry.1 entry.2

end Record

/-- Making a record of all entries at once is the same as inserting them one after another.
Whatever is inserted, the names are different from each other and stand in the order in which they
were first given.  Each name has the value that it was given last, and no other name has one.  There
are as many entries as different names.  Every insertion gives the value that its name was given
last before it, if it was. -/
theorem insertions_in_order {α : Type} (history : List (String × α)) :
    Record.ofList history = (Record.empty.exchangeAll history).2 ∧
    let made := (Record.empty : Record α).exchangeAll history
    let given := history.map Prod.fst
    made.2.names.Nodup ∧
    (∀ name, name ∈ made.2.names ↔ name ∈ given) ∧
    made.2.names.Pairwise (fun name other => given.idxOf name < given.idxOf other) ∧
    (∀ name, made.2.get? name = history.reverse.lookup name) ∧
    made.2.size = given.toFinset.card ∧
    ∀ index, made.1[index]? =
      history[index]?.map fun entry => (history.take index).reverse.lookup entry.1 := by
  have isMade : Record.ofList history = (Record.empty.exchangeAll history).2 :=
    (Record.exchangeAll_snd .empty history).symm
  refine ⟨isMade, ?_⟩
  intro made given
  have shown : made.2.Shows history := isMade ▸ Record.shows_ofList history
  refine ⟨shown.nodup, shown.mem_names, shown.ordered, shown.get?, shown.size, fun index => ?_⟩
  rw [Record.getElem?_exchangeAll]
  congr
  funext entry
  exact (Record.shows_ofList (history.take index)).get? entry.1

end Descriptor
