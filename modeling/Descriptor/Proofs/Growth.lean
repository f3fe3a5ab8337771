import Descriptor.Proofs.PropertyWrite
import Descriptor.Proofs.Trace
import Mathlib.Data.List.Chain
import Mathlib.Data.List.Nodup

/-!
# Containers only grow

Nothing is ever taken out of a container.  An array gets longer, an object gets further names behind
the ones it has, and neither becomes the other.  The names of an object are different from each
other if the objects that were there at first are made so: a literal that gives a name twice has it
once.

This holds between any two heaps of a run, the first one before the other: `heaps_evolve`.
-/

namespace Descriptor

/-! ## Names -/

namespace EntryWritten

variable {name : String} {value : Value} {before after : List (String × Value)}

/-- The names stay, and a new one comes behind them. -/
theorem names (written : EntryWritten name value before after) :
    after.map Prod.fst = before.map Prod.fst ∨
      name ∉ before.map Prod.fst ∧ after.map Prod.fst = before.map Prod.fst ++ [name] := by
  cases written with
  | inPlace isFirst => exact .inl (by simp only [List.map_append, List.map_cons])
  | appended isNew =>
      exact .inr ⟨isNew, by simp only [List.map_append, List.map_cons, List.map_nil]⟩

theorem names_prefix (written : EntryWritten name value before after) :
    before.map Prod.fst <+: after.map Prod.fst := by
  rcases written.names with same | ⟨-, further⟩
  · exact same ▸ List.prefix_rfl
  · exact further ▸ List.prefix_append _ _

theorem nodup (written : EntryWritten name value before after)
    (distinct : (before.map Prod.fst).Nodup) : (after.map Prod.fst).Nodup := by
  rcases written.names with same | ⟨isNew, further⟩
  · exact same ▸ distinct
  · rw [further, ← List.concat_eq_append]
    exact distinct.concat isNew

end EntryWritten

/-- Entries can be inserted under any names, repeated ones among them. -/
theorem Record.nodup_names_insertAll (record : Record Value) (entries : List (String × Value))
    (distinct : record.names.Nodup) : (record.insertAll entries).names.Nodup := by
  induction entries generalizing record with
  | nil => exact distinct
  | cons entry entries ih =>
      exact ih _ ((entryWritten_put entry.1 entry.2 record.entries).nodup distinct)

/-- An object has each name once, and an array has none. -/
def Container.HasDistinctNames : Container → Prop
  | .array _ => True
  | .object properties => properties.names.Nodup

/-- All objects have each name once. -/
def Heap.HasDistinctNames (heap : Heap) : Prop :=
  ∀ location container, heap.get? location = some container → container.HasDistinctNames

/-! ## Growing -/

/-- A container before and after it has grown.  An array is at least as long, and an object has the
names that it had in front of those that it got. -/
inductive Container.Extended : Container → Container → Prop where
  | array {before after : List Value} (length : before.length ≤ after.length) :
      Extended (.array before) (.array after)
  | object {before after : Record Value} (names : before.names <+: after.names) :
      Extended (.object before) (.object after)

namespace Container.Extended

theorem refl : ∀ container : Container, container.Extended container
  | .array _ => .array (Nat.le_refl _)
  | .object _ => .object List.prefix_rfl

theorem trans {first second third : Container} (before : first.Extended second)
    (behind : second.Extended third) : first.Extended third := by
  cases before with
  | array length =>
      cases behind with
      | array length' => exact .array (Nat.le_trans length length')
  | object names =>
      cases behind with
      | object names' => exact .object (names.trans names')

end Container.Extended

/-- The containers of a heap before and after they have grown.  Others may have come to them. -/
structure Heap.Evolves (before after : Heap) : Prop where
  extended : ∀ location old, before.get? location = some old →
    ∃ new, after.get? location = some new ∧ old.Extended new
  distinct : before.HasDistinctNames → after.HasDistinctNames

namespace Heap.Evolves

theorem refl (heap : Heap) : heap.Evolves heap where
  extended _ old found := ⟨old, found, .refl old⟩
  distinct := id

theorem trans {first second third : Heap} (before : first.Evolves second)
    (behind : second.Evolves third) : first.Evolves third where
  extended location old found := by
    rcases before.extended location old found with ⟨new, found', grown⟩
    rcases behind.extended location new found' with ⟨newer, found'', grown'⟩
    exact ⟨newer, found'', grown.trans grown'⟩
  distinct := behind.distinct ∘ before.distinct

instance : Trans Evolves Evolves Evolves := ⟨trans⟩

theorem alloc (heap : Heap) (container : Container) (distinct : container.HasDistinctNames) :
    heap.Evolves (heap.alloc container).2 where
  extended location old found := by
    rw [get?_alloc_of_lt heap container (lt_size_of_get? found)]
    exact ⟨old, found, .refl old⟩
  distinct all location other found := by
    have inside : location < heap.containers.size + 1 := by
      have within := lt_size_of_get? found
      simpa [Heap.alloc] using within
    rcases Nat.lt_succ_iff_lt_or_eq.mp inside with isOld | rfl
    · rw [get?_alloc_of_lt heap container isOld] at found
      exact all location other found
    · rw [get?_alloc_self, Option.some.injEq] at found
      exact found ▸ distinct

end Heap.Evolves

/-- A written slot makes its container no smaller. -/
theorem Container.SlotWritten.extended {heap : Heap} {key : Key} {value : Value}
    {old new : Container} (written : old.SlotWritten heap key value new) : old.Extended new := by
  cases written with
  | element _ _ written => exact .array (written.length ▸ Nat.le_max_left _ _)
  | entry written => exact .object written.names_prefix

theorem Container.SlotWritten.hasDistinctNames {heap : Heap} {key : Key} {value : Value}
    {old new : Container} (written : old.SlotWritten heap key value new)
    (distinct : old.HasDistinctNames) : new.HasDistinctNames := by
  cases written with
  | element => trivial
  | entry written => exact written.nodup distinct

theorem Heap.SlotWritten.evolves {before after : Heap} {object value : Value} {key : Key}
    (slotWritten : before.SlotWritten object key value after) : before.Evolves after := by
  rcases slotWritten with ⟨location, old, new, -, found, found', written, others⟩
  constructor
  · intro other container isOther
    by_cases same : other = location
    · subst same
      rw [found, Option.some.injEq] at isOther
      exact ⟨new, found', isOther ▸ written.extended⟩
    · exact ⟨container, (others other same).trans isOther, .refl container⟩
  · intro all other container isOther
    by_cases same : other = location
    · subst same
      rw [found', Option.some.injEq] at isOther
      exact isOther ▸ written.hasDistinctNames (all other old found)
    · exact all other container ((others other same).symm.trans isOther)

/-! ## Runs -/

/-- The heaps that a run goes through: the one that it begins with, and those that its visits
leave. -/
def heapsAlong (first : Heap) (visits : List Visit) : List Heap :=
  first :: visits.map (·.state.heap)

/-- Each heap has evolved from the one before, and the last one is left at the end. -/
structure HeapsEvolve (visits : List Visit) (before after : State) : Prop where
  each : (heapsAlong before.heap visits).IsChain Heap.Evolves
  last : (heapsAlong before.heap visits).getLast? = some after.heap

namespace HeapsEvolve

theorem append {visits visits' : List Visit} {first second third : State}
    (before : HeapsEvolve visits first second) (behind : HeapsEvolve visits' second third) :
    HeapsEvolve (visits ++ visits') first third := by
  have along : heapsAlong first.heap (visits ++ visits') =
      heapsAlong first.heap visits ++ visits'.map (·.state.heap) := by
    rw [heapsAlong, heapsAlong, List.map_append, List.cons_append]
  rcases List.isChain_cons.mp behind.each with ⟨next, each⟩
  constructor
  · rw [along]
    refine before.each.append each fun heap isLast => ?_
    rw [before.last, Option.mem_some_iff] at isLast
    exact isLast ▸ next
  · rw [along, List.getLast?_append, before.last, ← behind.last, heapsAlong, List.getLast?_cons]
    cases (visits'.map (·.state.heap)).getLast? <;> rfl

/-- A visit is accounted for if the heap that it leaves has evolved. -/
theorem of_visit {before after : State} (evolves : before.heap.Evolves after.heap)
    (occurrence : Occurrence) : HeapsEvolve [⟨occurrence, after⟩] before after :=
  ⟨.cons_cons evolves (.singleton _), rfl⟩

end HeapsEvolve

theorem accounts_heapsEvolve : Accounts HeapsEvolve where
  nil state := ⟨.singleton _, rfl⟩
  append := HeapsEvolve.append
  rescope _ _ evolve := ⟨evolve.each, evolve.last⟩
  idle node position state := .of_visit (.refl _) _
  read name position state := .of_visit (Run.heap_read name state ▸ .refl _) _
  assign target _ value position state := .of_visit (Run.heap_assign target value state ▸ .refl _) _
  array node elements position state := .of_visit (.alloc state.heap (.array elements) trivial) _
  object node entries position state :=
    .of_visit (.alloc state.heap (.object (.ofList entries))
      (Record.nodup_names_insertAll .empty entries List.nodup_nil)) _
  property _ accessor holder key position state :=
    .of_visit (Run.heap_property accessor.token holder key state ▸ .refl _) _
  setProperty _ accessor _ target key value position state := by
    apply HeapsEvolve.of_visit
    rcases Run.setProperty_cases accessor.token target key value state with
      ⟨after, -, written, done⟩ | ⟨fault, current, -, failed⟩
    · rw [done]
      exact written.evolves
    · rw [failed]
      exact .refl state.heap

/-- A run goes from heap to heap with its visits, up to the heap that it leaves, and in each of
these heaps all containers have grown from what they were in any heap before. -/
theorem heaps_evolve (program : List Stmt) (state : State) :
    let heaps := heapsAlong state.heap ((trace program).visits state)
    (trace program).run = evaluate program ∧
    heaps.getLast? = some (evaluate program state).2.heap ∧
    heaps.Pairwise Heap.Evolves ∧
    state.heap.Evolves (evaluate program state).2.heap := by
  intro heaps
  rcases (accounts_heapsEvolve.evaluate program state).2 with ⟨each, last⟩
  have pairwise : heaps.Pairwise Heap.Evolves := List.isChain_iff_pairwise.mp each
  refine ⟨run_trace program, last, pairwise, ?_⟩
  rcases List.mem_cons.mp (List.mem_of_getLast? last) with same | behind
  · exact same ▸ .refl _
  · exact List.rel_of_pairwise_cons pairwise behind

end Descriptor
