import Descriptor.Proofs.PropertyWrite
import Descriptor.Proofs.Trace
import Mathlib.Data.List.NodupEquivFin

/-!
# Which nodes report errors

An error is reported by the visit of a variable, an assignment, an access or a property write, and
it carries the token of this node.  A visit reports one error at most and a node is visited once at
most, so the errors of a run belong to different nodes of the program, in the order of the nodes:
`errors_of_distinct_nodes`.
-/

namespace Descriptor

/-- The node has a reason to report the error and leaves the given state.  A report changes neither
variables nor containers, so the reason can still be seen there. -/
inductive Node.Reports (state : State) : Node → RuntimeError → Prop where
  | unboundVariable (name : Token) (unbound : name.lexeme ∉ state.scope.names) :
      Reports state (.expression (.variable name)) ⟨name, .undefinedVariable name.lexeme⟩
  | unboundTarget (target : Token) (value : Expr) (unbound : target.lexeme ∉ state.scope.names) :
      Reports state (.expression (.assign target value))
        ⟨target, .undefinedVariable target.lexeme⟩
  | readonlyTarget (target : Token) (value : Expr) {inner outer : Scope} {owner : Frame}
      {current : Value} (owned : state.scope.Owned target.lexeme inner owner current outer)
      (isReadonly : owner.readonly = true) :
      Reports state (.expression (.assign target value)) ⟨target, .readonly target.lexeme⟩
  | missingProperty (object : Expr) (accessor : Accessor) {holder : Value} {key : Key}
      (missing : state.heap.property? holder key = none) :
      Reports state (.expression (.get object accessor)) ⟨accessor.token, .propertyDoesNotExist⟩
  | refusedWrite (object : Expr) (accessor : Accessor) (value : Expr) {target : Binding}
      {key : Key} {fault : RuntimeFault} {current : Value}
      (refused : Refused state.heap target key fault current) :
      Reports state (.expression (.set object accessor value)) ⟨accessor.token, fault⟩

/-- The visit has reported the error, as the last one so far. -/
structure Visit.Reported (visit : Visit) (error : RuntimeError) : Prop where
  cause : visit.occurrence.1.Reports visit.state error
  last : visit.state.errors.back? = some error

/-- The errors that have been added belong to some of the visits, one to each of them, in order. -/
def ErrorsOfVisits (visits : List Visit) (before after : State) : Prop :=
  ∃ added : List RuntimeError, after.errors = before.errors ++ added.toArray ∧
    List.SublistForall₂ (fun error visit => visit.Reported error) added visits

namespace ErrorsOfVisits

theorem of_errors_eq {before after : State} (visits : List Visit)
    (same : after.errors = before.errors) : ErrorsOfVisits visits before after :=
  ⟨[], by rw [same, Array.append_empty], .nil⟩

theorem of_report {state after : State} {token : Token} {fault : RuntimeFault} {node : Node}
    (reported : after = state.report token fault)
    (reports : node.Reports (state.report token fault) ⟨token, fault⟩) (position : Nat) :
    ErrorsOfVisits [⟨(node, position), after⟩] state after := by
  subst reported
  have last : (state.report token fault).errors.back? = some ⟨token, fault⟩ := Array.back?_push
  exact ⟨[⟨token, fault⟩], Array.push_eq_append, .cons ⟨reports, last⟩ .nil⟩

theorem append {visits visits' : List Visit} {first second third : State}
    (before : ErrorsOfVisits visits first second) (behind : ErrorsOfVisits visits' second third) :
    ErrorsOfVisits (visits ++ visits') first third := by
  rcases before with ⟨added, errors, belong⟩
  rcases behind with ⟨added', errors', belong'⟩
  rcases List.sublistForall₂_iff.mp belong with ⟨chosen, each, among⟩
  rcases List.sublistForall₂_iff.mp belong' with ⟨chosen', each', among'⟩
  refine ⟨added ++ added', ?_, List.sublistForall₂_iff.mpr ⟨chosen ++ chosen', ?_, ?_⟩⟩
  · rw [errors', errors, Array.append_assoc, List.append_toArray added]
  · exact List.rel_append each each'
  · exact among.append among'

end ErrorsOfVisits

/-- Every kind of node reports one error at most, and only the four kinds report any. -/
theorem accounts_errorsOfVisits : Accounts ErrorsOfVisits where
  nil state := .of_errors_eq [] rfl
  append := ErrorsOfVisits.append
  rescope scope scope' errorsOf := errorsOf
  idle node position state := .of_errors_eq _ rfl
  read name position state := by
    cases found : state.scope.lookup? name.lexeme with
    | some binding => exact .of_errors_eq _ (by rw [Run.read, found])
    | none =>
        have unbound := Scope.lookup?_eq_none_iff.mp found
        exact .of_report (by rw [Run.read, found]) (.unboundVariable name unbound) position
  assign target expression value position state := by
    rcases Scope.exists_owned_or_unbound target.lexeme state.scope with
      ⟨inner, owner, current, outer, owned⟩ | unbound
    · cases isReadonly : owner.readonly with
      | false =>
          refine .of_errors_eq _ ?_
          rw [Run.assign, owned.assign_of_mutable isReadonly]
      | true =>
          refine .of_report ?_ (.readonlyTarget target expression owned isReadonly) position
          rw [Run.assign, owned.assign_of_readonly isReadonly]
    · refine .of_report ?_ (.unboundTarget target expression unbound) position
      rw [Run.assign, Scope.assign_eq_unbound_iff.mpr unbound]
  array node elements position state := .of_errors_eq _ rfl
  object node entries position state := .of_errors_eq _ rfl
  property object accessor holder key position state := by
    cases found : state.heap.property? holder key with
    | some value => exact .of_errors_eq _ (by rw [Run.property, found])
    | none =>
        exact .of_report (by rw [Run.property, found]) (.missingProperty object accessor found)
          position
  setProperty object accessor expression target key value position state := by
    rcases Run.setProperty_cases accessor.token target key value state with
      ⟨after, -, -, done⟩ | ⟨fault, current, refused, failed⟩
    · exact .of_errors_eq _ (by rw [done])
    · exact .of_report (by rw [failed]) (.refusedWrite object accessor expression refused) position

/-- A run evaluates every node of its program once at most, and the errors that it adds belong to
different nodes that it evaluates, in the order of the nodes.  Each of these nodes is a variable, an
assignment, an access or a property write and has the token of the error. -/
theorem errors_of_distinct_nodes (program : List Stmt) (state : State) :
    let visits := (trace program).visits state
    (trace program).run = evaluate program ∧
    (visits.map Visit.occurrence).Sublist (nodesOfBody program).zipIdx ∧
    ∃ (added : List RuntimeError) (position : ℕ ↪o ℕ),
      (evaluate program state).2.errors = state.errors ++ added.toArray ∧
      ∀ index error, added[index]? = some error →
        ∃ node after, (nodesOfBody program)[position index]? = some node ∧
          ⟨(node, position index), after⟩ ∈ visits ∧ node.Reports after error ∧
          after.errors.back? = some error := by
  intro visits
  rcases accounts_errorsOfVisits.evaluate program state with ⟨once, added, errors, belong⟩
  rcases List.sublistForall₂_iff.mp belong with ⟨chosen, each, among⟩
  have ordered : (chosen.map Visit.occurrence).Sublist (nodesOfBody program).zipIdx :=
    (among.map Visit.occurrence).trans once
  rcases List.sublist_iff_exists_orderEmbedding_getElem?_eq.mp ordered with ⟨position, placed⟩
  refine ⟨run_trace program, once, added, position, errors, fun index error isAdded => ?_⟩
  rcases List.getElem?_eq_some_iff.mp isAdded with ⟨inAdded, rfl⟩
  have inChosen : index < chosen.length := each.length_eq ▸ inAdded
  have reported : chosen[index].Reported added[index] := each.get inAdded inChosen
  have isChosen : chosen[index] ∈ visits := among.subset (List.getElem_mem inChosen)
  generalize found : chosen[index] = visit at reported isChosen
  rcases visit with ⟨⟨node, own⟩, after⟩
  have isPlaced := placed index
  rw [List.getElem?_map, List.getElem?_eq_getElem inChosen, found, List.getElem?_zipIdx] at isPlaced
  rcases Option.map_eq_some_iff.mp isPlaced.symm with ⟨node', isNode, same⟩
  cases same
  exact ⟨node, after, isNode, by simpa using isChosen, reported.cause, reported.last⟩

end Descriptor
