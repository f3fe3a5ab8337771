import Descriptor.Proofs.Cursor.Following

/-!
# Machines that keep a record

A course drops declarations on its way and lists their errors.  A machine that follows a course
reports these errors, one after the other, and records every declaration that it tried, with the
error that it was dropped for.  So the errors on record are the errors that were reported, and
the error of a rule that fails is the only one that is not on record yet.
-/

namespace Descriptor.Cursor

open Grammar

variable {α β : Type}

/-! ## Errors on the way -/

/-- Errors that are found one behind the other on the way from some tokens to the rest of them. -/
inductive InPlace : List Token → List ParseError → List Token → Prop where
  | nil {tokens rest : List Token} (forward : rest <:+ tokens) : InPlace tokens [] rest
  | cons {tokens place rest : List Token} {error : ParseError} {errors : List ParseError}
      (isAt : place.head? = error.token) (ahead : place <:+ tokens)
      (others : InPlace place errors rest) : InPlace tokens (error :: errors) rest

namespace InPlace

variable {tokens middle place rest : List Token} {errors others : List ParseError}

theorem forward (inPlace : InPlace tokens errors rest) : rest <:+ tokens := by
  induction inPlace with
  | nil forward => exact forward
  | cons isAt ahead others ih => exact ih.trans ahead

theorem append (first : InPlace tokens errors middle) (second : InPlace middle others rest) :
    InPlace tokens (errors ++ others) rest := by
  induction first with
  | nil forward =>
      cases second with
      | nil forward' => exact .nil (forward'.trans forward)
      | cons isAt ahead others => exact .cons isAt (ahead.trans forward) others
  | cons isAt ahead first ih => exact .cons isAt ahead (ih second)

/-- One error more, found no later than where the way ends. -/
theorem concat (first : InPlace tokens errors middle) {error : ParseError}
    (isAt : place.head? = error.token) (ahead : place <:+ middle) (forward : rest <:+ place) :
    InPlace tokens (errors ++ [error]) rest :=
  first.append (.cons isAt ahead (.nil forward))

end InPlace

/-! ## The record -/

/-- The registers after some declarations were tried, and the errors of those that were dropped
were reported. -/
def Registers.log (registers : Registers) (attempts : List Attempt) : Registers :=
  { registers with
    errors := registers.errors ++ attempts.filterMap Attempt.error?
    attempts := registers.attempts ++ attempts }

namespace Registers

variable (registers : Registers) (attempts : List Attempt)

@[simp]
theorem log_nil : registers.log [] = registers := by
  simp [log]

@[simp]
theorem log_log (others : List Attempt) :
    (registers.log attempts).log others = registers.log (attempts ++ others) := by
  simp [log]

end Registers

theorem Site.facing_report (site : Site) (rest : List Token) (registers : Registers)
    (error : CompileError) :
    site.facing rest (registers.report error) = (site.facing rest registers).report error :=
  rfl

variable {site : Site}

/-- What is on record about the way from some tokens to the rest of them, when none of the
declarations began before `low`. -/
structure Logged (site : Site) (low : Nat) (tokens : List Token) (errors : List ParseError)
    (attempts : List Attempt) (rest : List Token) : Prop where
  inPlace : InPlace tokens errors rest
  errors_eq : attempts.filterMap Attempt.error? = errors.map (·.report site.close)
  low_le : ∀ attempt ∈ attempts, low ≤ attempt.start
  consumes : ∀ attempt ∈ attempts, attempt.start < attempt.stop ∧ attempt.stop ≤ site.index rest
  nodup : (attempts.map Attempt.start).Nodup

namespace Logged

variable {low : Nat} {tokens middle place rest : List Token} {errors others : List ParseError}
  {attempts more : List Attempt}

theorem nil (forward : rest <:+ tokens) : Logged site low tokens [] [] rest where
  inPlace := .nil forward
  errors_eq := rfl
  low_le := List.forall_mem_nil _
  consumes := List.forall_mem_nil _
  nodup := .nil

theorem weaken {high : Nat} (logged : Logged site high tokens errors attempts rest)
    (below : low ≤ high) : Logged site low tokens errors attempts rest :=
  { logged with low_le := fun attempt member => below.trans (logged.low_le attempt member) }

/-- The way may begin earlier. -/
theorem mono {all : List Token} (logged : Logged site low tokens errors attempts rest)
    (forward : tokens <:+ all) : Logged site low all errors attempts rest :=
  { logged with inPlace := InPlace.append (.nil forward) logged.inPlace }

/-- Declarations that were tried one after the other began at different tokens. -/
theorem append (first : Logged site low tokens errors attempts middle)
    (second : Logged site (site.index middle) middle others more rest)
    (below : low ≤ site.index middle) :
    Logged site low tokens (errors ++ others) (attempts ++ more) rest where
  inPlace := first.inPlace.append second.inPlace
  errors_eq := by
    rw [List.filterMap_append, first.errors_eq, second.errors_eq, List.map_append]
  low_le attempt member := by
    rcases List.mem_append.mp member with early | late
    · exact first.low_le attempt early
    · exact below.trans (second.low_le attempt late)
  consumes attempt member := by
    rcases List.mem_append.mp member with early | late
    · rcases first.consumes attempt early with ⟨consumes, stops⟩
      exact ⟨consumes, stops.trans (Site.index_mono second.inPlace.forward)⟩
    · exact second.consumes attempt late
  nodup := by
    rw [List.map_append]
    refine List.nodup_append.mpr ⟨first.nodup, second.nodup, ?_⟩
    intro start early start' late
    rcases List.mem_map.mp early with ⟨attempt, member, rfl⟩
    rcases List.mem_map.mp late with ⟨other, member', rfl⟩
    have before := first.consumes attempt member
    have behind := second.low_le other member'
    omega

/-- A declaration is put on record behind those that were tried inside it. -/
theorem concat (error? : Option CompileError)
    (inside : Logged site (site.index tokens + 1) tokens errors attempts middle)
    (forward : rest <:+ middle) (inPlace : InPlace tokens others rest)
    (reported : errors.map (·.report site.close) ++ error?.toList =
      others.map (·.report site.close))
    (consumes : site.index tokens < site.index rest) :
    Logged site (site.index tokens) tokens others
      (attempts ++ [⟨site.index tokens, site.index rest, error?⟩]) rest where
  inPlace := inPlace
  errors_eq := by
    rw [← reported, List.filterMap_append, inside.errors_eq]
    cases error? <;> rfl
  low_le attempt member := by
    rcases List.mem_append.mp member with early | last
    · exact (Nat.le_succ _).trans (inside.low_le attempt early)
    · rw [List.mem_singleton.mp last]
  consumes attempt member := by
    rcases List.mem_append.mp member with early | last
    · rcases inside.consumes attempt early with ⟨consumes, stops⟩
      exact ⟨consumes, stops.trans (Site.index_mono forward)⟩
    · rw [List.mem_singleton.mp last]
      exact ⟨consumes, Nat.le_refl _⟩
  nodup := by
    rw [List.map_append]
    refine List.nodup_append.mpr ⟨inside.nodup, List.pairwise_singleton _ _, ?_⟩
    intro start early start' last
    rcases List.mem_map.mp early with ⟨attempt, member, rfl⟩
    have behind := inside.low_le attempt member
    rw [List.map_singleton, List.mem_singleton] at last
    rw [last]
    exact Nat.ne_of_gt behind

end Logged

/-! ## Following a course -/

/-- An outcome that is what a course gives on the tokens `unread`, when it tries no declaration
before `low`. -/
inductive CourseMatches (site : Site) (registers : Registers) (low : Nat) (unread : List Token) :
    Outcome α → List ParseError × Result α → Prop where
  | ok {errors : List ParseError} {attempts : List Attempt} {a : α} {rest : List Token}
      (logged : Logged site low unread errors attempts rest) :
      CourseMatches site registers low unread
        (.ok (.ok a, site.facing rest (registers.log attempts))) (errors, .ok (a, rest))
  | error {errors : List ParseError} {attempts : List Attempt} {error : ParseError}
      {middle place rest : List Token} (logged : Logged site low unread errors attempts middle)
      (isAt : place.head? = error.token) (ahead : place <:+ middle) (forward : rest <:+ place) :
      CourseMatches site registers low unread
        (.ok (.error (error.report site.close),
          (site.facing rest (registers.log attempts)).report (error.report site.close)))
        (errors, .error ⟨error, rest⟩)

/-- The machine does what the course does, where `room` levels are left.  At least `lead` tokens
lie in front of the first declaration that is tried. -/
def CourseFollows (site : Site) (room lead : Nat) (machine : Machine α) (course : Course α) :
    Prop :=
  ∀ ⦃registers unread⦄, nestingLimit - registers.nesting = room → unread <:+ site.text →
    CourseMatches site registers (site.index unread + lead) unread
      (machine.run site.input (site.facing unread registers)) (course.run unread)

namespace CourseMatches

variable {registers : Registers} {low : Nat} {unread : List Token} {outcome : Outcome α}
  {result : List ParseError × Result α}

theorem weaken {high : Nat} (same : CourseMatches site registers high unread outcome result)
    (below : low ≤ high) : CourseMatches site registers low unread outcome result := by
  cases same with
  | ok logged => exact .ok (logged.weaken below)
  | error logged isAt ahead forward => exact .error (logged.weaken below) isAt ahead forward

/-- What was done on the last of some tokens was done on all of them. -/
theorem mono {tokens : List Token} (same : CourseMatches site registers low unread outcome result)
    (forward : unread <:+ tokens) : CourseMatches site registers low tokens outcome result := by
  cases same with
  | ok logged => exact .ok (logged.mono forward)
  | error logged isAt ahead forward' => exact .error (logged.mono forward) isAt ahead forward'

/-- A step drops nothing. -/
theorem ofStep {result : Result α} (same : Matches site registers unread id outcome result) :
    CourseMatches site registers low unread outcome ([], result) := by
  cases same with
  | @ok a rest forward =>
      have nothing : Logged site low unread [] [] rest := .nil forward
      have same := @CourseMatches.ok α site registers low unread [] [] a rest nothing
      rwa [Registers.log_nil] at same
  | @error error place rest isAt ahead forward =>
      have nothing : Logged site low unread [] [] place := .nil ahead
      have same := @CourseMatches.error α site registers low unread [] [] error place place rest
        nothing isAt (List.suffix_refl place) forward
      rwa [Registers.log_nil] at same

/-- What is done behind a part of the way is put on record behind what was tried there. -/
theorem after {errors : List ParseError} {attempts : List Attempt} {rest : List Token}
    (logged : Logged site low unread errors attempts rest) (below : low ≤ site.index rest)
    (same : CourseMatches site (registers.log attempts) (site.index rest) rest outcome result) :
    CourseMatches site registers low unread outcome (errors ++ result.1, result.2) := by
  cases same with
  | ok more =>
      rw [Registers.log_log]
      exact .ok (logged.append more below)
  | error more isAt ahead forward =>
      rw [Registers.log_log]
      exact .error (logged.append more below) isAt ahead forward

end CourseMatches

namespace CourseFollows

variable {room lead : Nat}

theorem ofStep {machine : Machine α} {step : Step α} (follows : Follows site room machine step) :
    CourseFollows site room lead machine (Course.ofStep step) :=
  fun _ _ level inside => .ofStep (follows level inside)

theorem weaken {machine : Machine α} {course : Course α}
    (follows : CourseFollows site room lead machine course) :
    CourseFollows site room 0 machine course :=
  fun _ _ level inside => (follows level inside).weaken (Nat.le_add_right _ _)

theorem pure (a : α) : CourseFollows site room lead (Pure.pure a) (Pure.pure a) :=
  .ofStep (.pure rfl)

theorem bind {machine : Machine α} {course : Course α} {next : α → Machine β}
    {next' : α → Course β} (first : CourseFollows site room 0 machine course)
    (second : ∀ a, CourseFollows site room 0 (next a) (next' a)) :
    CourseFollows site room 0 (machine >>= next) (course >>= next') := by
  intro registers unread level inside
  have same := first level inside
  rw [Machine.run_bind, Course.run_bind]
  generalize machine.run _ _ = outcome, course.run unread = result at same ⊢
  cases same with
  | @ok errors attempts a rest logged =>
      have forward := logged.inPlace.forward
      have later := @second a (registers.log attempts) rest level (forward.trans inside)
      exact .after logged (Site.index_mono forward) later
  | error logged isAt ahead forward => exact .error logged isAt ahead forward

/-- A rule one level deeper has one level less, and gives it back. -/
theorem nested {machine : Machine α} {course : Course α}
    (follows : CourseFollows site room lead machine course) :
    CourseFollows site (room + 1) lead (nested machine) course := by
  intro registers unread level inside
  have isOpen : registers.nesting < nestingLimit := by omega
  have deeper : nestingLimit - registers.enter.nesting = room := by
    change nestingLimit - (registers.nesting + 1) = room
    omega
  have same := follows deeper inside
  rw [run_nested machine unread isOpen]
  generalize course.run unread = result, machine.run site.input _ = outcome at same ⊢
  cases same with
  | ok logged => exact .ok logged
  | error logged isAt ahead forward => exact .error logged isAt ahead forward

/-- One kind of token less to choose by. -/
theorem byKind {kind : Kind} (notEnd : kind ≠ .endOfText) {machine machine' : Machine α}
    {select select' : Token → Option (Course α)} {next : Course α} {otherwise : Clause α}
    (selects : ∀ token, select token = if token.kind = kind then some next else select' token)
    (first : CourseFollows site room 0 machine next)
    (others : CourseFollows site room 1 machine' (Clause.byToken select' otherwise).course) :
    CourseFollows site room 1 (do if ← accept kind then machine else machine')
      (Clause.byToken select otherwise).course := by
  intro registers unread level inside
  rw [Machine.run_bind]
  rcases Site.kind_cases kind unread with ⟨token, rest, rfl, isKind⟩ | other
  · have forward := List.suffix_cons token rest
    rw [run_accept_of_kind inside _ isKind,
      Clause.run_byToken_of_some ((selects token).trans (if_pos isKind))]
    have same := (first level (forward.trans inside)).mono forward
    rwa [Site.index_of_cons inside] at same
  · have same : (Clause.byToken select otherwise).course.run unread =
        (Clause.byToken select' otherwise).course.run unread := by
      cases unread with
      | nil => rfl
      | cons token rest => simp only [Clause.byToken, selects token, if_neg (other token rfl)]
    rw [run_accept_of_ne notEnd inside _ other, same]
    exact others level inside

/-- No kind of token is left to choose by. -/
theorem unselected {machine : Machine α} {otherwise : Clause α}
    (follows : CourseFollows site room lead machine otherwise.course) :
    CourseFollows site room lead machine
      (Clause.byToken (fun _ => none) otherwise).course := by
  intro registers unread level inside
  have same : (Clause.byToken (fun _ => none) otherwise).course.run unread =
      otherwise.course.run unread := by
    cases unread <;> rfl
  rw [same]
  exact follows level inside

end CourseFollows

end Descriptor.Cursor
