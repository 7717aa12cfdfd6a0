import RelationQuery.Proofs.Outcome
import RelationQuery.Query.Subquery

/-! Calls as they edit a query in place, one check and one write after the other. Main statement: a
call that fails has written nothing, unless it is the end of a group. -/
namespace RelationQuery

/-- Checks and writes on a query in place; a failure does not take back what has been written. -/
abbrev Edit := ExceptT Error (StateM Query)

namespace Edit

variable {α β : Type}

def exec (edit : Edit α) (q : Query) : Except Error α × Query := (edit.run.run q).run

def check (result : Except Error α) : Edit α := ExceptT.mk (pure result)

def look (read : Query → Except Error α) : Edit α := do check (read (← get))

def write (f : Query → Query) : Edit Unit := modify f

def ignore (edit : Edit Unit) : Edit Unit := tryCatch edit fun _ => pure ()

variable (q : Query)

theorem exec_look (read : Query → Except Error α) : exec (look read) q = (read q, q) := rfl

theorem exec_write (f : Query → Query) : exec (write f) q = (.ok (), f q) := rfl

theorem exec_bind (edit : Edit α) (next : α → Edit β) :
    exec (edit >>= next) q =
      match exec edit q with
      | (.ok a, q) => exec (next a) q
      | (.error error, q) => (.error error, q) := by
  change (match exec edit q with
    | (result, q) => (StateT.run (ExceptT.bindCont next result) q).run) = _
  rcases exec edit q with ⟨_ | _, _⟩ <;> rfl

theorem exec_ignore (edit : Edit Unit) : exec (ignore edit) q = (.ok (), (exec edit q).2) := by
  unfold ignore
  simp only [exec, tryCatch, tryCatchThe, MonadExceptOf.tryCatch, ExceptT.tryCatch, ExceptT.run_mk,
    StateT.run_bind, Id.run_bind]
  cases outcome : (StateT.run edit q).run.1 <;> rfl

def Atomic (edit : Edit α) : Prop :=
  ∀ q error after, exec edit q = (.error error, after) → after = q

def Sure (edit : Edit α) : Prop := ∀ q, ∃ a after, exec edit q = (.ok a, after)

theorem sure_write (f : Query → Query) : Sure (write f) := fun q => ⟨(), f q, rfl⟩

theorem Sure.bind {edit : Edit α} {next : α → Edit β} (h : Sure edit) (more : ∀ a, Sure (next a)) :
    Sure (edit >>= next) := by
  intro q
  obtain ⟨a, after, went⟩ := h q
  rw [exec_bind, went]
  exact more a after

theorem sure_ignore (edit : Edit Unit) : Sure (ignore edit) :=
  fun q => ⟨(), _, exec_ignore q edit⟩

theorem Sure.atomic {edit : Edit α} (h : Sure edit) : Atomic edit := by
  intro q error after failed
  obtain ⟨a, _, went⟩ := h q
  cases went.symm.trans failed

theorem atomic_write (f : Query → Query) : Atomic (write f) := (sure_write f).atomic

theorem atomic_throw (error : Error) : Atomic (throw error : Edit α) := by
  intro q other after failed
  cases failed
  rfl

theorem atomic_check_bind (result : Except Error α) {next : α → Edit β}
    (more : ∀ a, Atomic (next a)) : Atomic (check result >>= next) := by
  intro q error after failed
  cases result with
  | ok a => exact more a q error after failed
  | error other =>
    cases failed
    rfl

theorem atomic_look_bind (read : Query → Except Error α) {next : α → Edit β}
    (more : ∀ a, Atomic (next a)) : Atomic (look read >>= next) := by
  intro q error after failed
  rw [exec_bind, exec_look] at failed
  cases found : read q with
  | ok a =>
    rw [found] at failed
    exact more a q error after failed
  | error other =>
    rw [found] at failed
    cases failed
    rfl

end Edit

namespace Query

open Edit

variable (subquery : SubqueryCompiler)

def editDeferred (deferred : Deferred) : Edit Unit := do
  let condition ← look fun q => do deferred.existence.compile subquery (← q.scope)
  let statement ← look (·.statement.fill deferred.slot condition)
  write ({ · with statement })

/-- The checks and writes of a step, in the order in which they are made. -/
def edit : Step → Edit Unit
  | .fromTable table => do
    let (name, label) ← check (checkLabelled .table table)
    write (·.onStatement (·.fromTable { name, label }))
  | .select column => do
    let (name, label) ← check (checkLabelled .column column)
    write (·.onStatement (·.select name label))
  | .join kind table left right => do
    let (name, label) ← check (checkLabelled .table table)
    check (checkName .column left)
    check (checkName .column right)
    write (·.onStatement (·.addJoin { kind, table := { name, label }, left, right }))
  | .filter connective key value => do
    let (column, operator) ← check (splitKey key)
    check (checkName .column column)
    write (·.onStatement (·.addCondition connective (.comparing column operator value)))
  | .filterIn connective negated column values => do
    check (checkName .column column)
    write (·.onStatement (·.addCondition connective (.member column negated values)))
  | .openGroup connective negated => write (·.openGroup connective negated)
  | .closeGroup => do
    let depth ← look fun q => .ok q.statement.openGroups
    if depth = 0 then throw (.group .noneOpen)
    let ready ← look fun q => .ok (q.deferrals.filter (depth ≤ ·.depth))
    write fun q =>
      { q with deferrals := q.deferrals.filter fun held => !decide (depth ≤ held.depth) }
    ready.forM (editDeferred subquery)
    let statement ← look (·.statement.closeGroup)
    write ({ · with statement })
  | .orderBy column direction => do
    check (checkName .column column)
    write (·.onStatement (·.orderBy column direction))
  | .limit count => write (·.limit count)
  | .offset count => write (·.offset count)
  | .countAll => write (·.countAll)
  | .load cardinality edge => do
    let link ← check edge.link
    write (·.declare (.relation { link, cardinality, label := link.name }))
  | .aggregate kind edge column => do
    let link ← check edge.link
    let operand ← check (checkOperand kind column)
    let label := link.label.getD (link.target ++ "_" ++ kind.name)
    if ← look fun q => .ok (q.aggregateNamed? label).isSome then throw (.repeatedLabel label)
    write (·.declare (.aggregate { link, measure := { kind, operand }, label }))
  | .filterCount connective edge operator count => do
    let link ← check edge.link
    let some comparison := Comparison.parse? operator.toList
      | throw (.parameter (.countOperator operator))
    if count < 0 then throw (.parameter (.negativeCount count))
    write (·.declare (.count { link, comparison, bound := count.toNat, connective }))
  | .filterExists connective negated edge => do
    let link ← check edge.link
    let existence := { link, negated, connective }
    let depth ← look fun q => .ok q.statement.openGroups
    if depth = 0 then write (·.declare (.existence existence))
    else
      let slot ← look fun q => .ok q.statement.slots
      write (·.onStatement fun s => (s.reserve connective).2)
      write fun q => { q with deferrals := q.deferrals ++ [{ slot, depth, existence }] }
  | .filterExistsNow connective edge => do
    let existence : RelatedExistence := { link := ← check edge.link, negated := false, connective }
    let condition ← look fun q => do existence.compile subquery (← q.scope)
    write (·.onStatement (·.addCondition connective condition))
  | .filterAggregate connective key value => do
    let (label, operator) ← check (splitKey key)
    let .compare comparison := operator
      | throw (.parameter (.filterOperator operator))
    if value.isNull then throw (.parameter (.nullFilter label))
    let aggregate? ← look fun q => .ok (q.aggregateNamed? label)
    let some aggregate := aggregate? | throw (.unknownLabel label)
    write (·.declare (.filter { aggregate, comparison, value, connective }))
  | .orderByAggregate label direction => do
    if ← look fun q => .ok (q.aggregateNamed? label).isNone then throw (.unknownLabel label)
    write (·.onStatement (·.orderBy label direction))
  | .fail error => throw error
  | .attempt step => ignore (edit step)

def report : Query × Option Error → Except Error Unit × Query
  | (q, none) => (.ok (), q)
  | (q, some error) => (.error error, q)

theorem exec_check_bind {α : Type} {q : Query} {result : Except Error α} {next : α → Edit Unit}
    {more : α → Except Error Query}
    (each : ∀ a, exec (next a) q = report (q.orUnchanged (more a))) :
    exec (check result >>= next) q = report (q.orUnchanged (result >>= more)) := by
  cases result with
  | ok a => exact each a
  | error error => rfl

theorem exec_editDeferred (deferred : Deferred) (q : Query) :
    exec (editDeferred subquery deferred) q =
      match q.scope >>= deferred.existence.compile subquery >>= q.statement.fill deferred.slot with
      | .ok statement => (.ok (), { q with statement })
      | .error error => (.error error, q) := by
  unfold editDeferred
  rw [exec_bind, exec_look]
  cases q.scope with
  | error error => rfl
  | ok scope =>
    simp only [Outcome.ok_bind]
    cases deferred.existence.compile subquery scope with
    | error error => rfl
    | ok condition =>
      simp only [Outcome.ok_bind]
      rw [exec_bind, exec_look]
      cases q.statement.fill deferred.slot condition <;> rfl

theorem exec_settle (ready : List Deferred) (q : Query) :
    exec (ready.forM (editDeferred subquery)) q = report (settle subquery ready q) := by
  induction ready generalizing q with
  | nil => rfl
  | cons deferred rest ih =>
    unfold settle
    change exec (editDeferred subquery deferred >>= fun _ =>
      rest.forM (editDeferred subquery)) q = _
    rw [exec_bind, exec_editDeferred]
    rw [bind_assoc]
    dsimp only
    cases q.scope >>= fun scope => deferred.existence.compile subquery scope >>=
      q.statement.fill deferred.slot with
    | ok statement => exact ih { q with statement }
    | error error => rfl

theorem exec_closeGroup (q : Query) :
    exec (edit subquery .closeGroup) q = report (q.closeGroup subquery) := by
  unfold edit closeGroup
  rw [exec_bind, exec_look]
  dsimp only
  split
  · rfl
  · change exec (look _ >>= _) q = _
    simp only [exec_bind, exec_look, exec_write, exec_settle, List.partition_eq_filter_filter,
      Function.comp_def]
    generalize settle subquery _ _ = settled
    rcases settled with ⟨after, _ | error⟩
    · dsimp only [report]
      cases after.statement.closeGroup <;> rfl
    · rfl

theorem exec_edit (step : Step) (q : Query) :
    exec (edit subquery step) q = report (q.applyUsing subquery step) := by
  cases step with
  | fromTable table => exact exec_check_bind fun _ => rfl
  | select column => exact exec_check_bind fun _ => rfl
  | join kind table left right =>
    exact exec_check_bind fun _ => exec_check_bind fun _ => exec_check_bind fun _ => rfl
  | filter connective key value => exact exec_check_bind fun _ => exec_check_bind fun _ => rfl
  | filterIn connective negated column values => exact exec_check_bind fun _ => rfl
  | openGroup connective negated => rfl
  | closeGroup => exact exec_closeGroup subquery q
  | orderBy column direction => exact exec_check_bind fun _ => rfl
  | limit count => rfl
  | offset count => rfl
  | countAll => rfl
  | load cardinality edge => exact exec_check_bind fun _ => rfl
  | aggregate kind edge column =>
    refine exec_check_bind fun link => exec_check_bind fun operand => ?_
    dsimp only
    rw [exec_bind, exec_look]
    dsimp only
    split <;> rfl
  | filterCount connective edge operator count =>
    refine exec_check_bind fun link => ?_
    cases Comparison.parse? operator.toList with
    | none => rfl
    | some comparison =>
      simp only
      split <;> rfl
  | filterExists connective negated edge =>
    refine exec_check_bind fun link => ?_
    dsimp only
    rw [exec_bind, exec_look]
    dsimp only
    split <;> rfl
  | filterExistsNow connective edge =>
    refine exec_check_bind fun link => ?_
    dsimp only
    rw [exec_bind, exec_look]
    cases known : q.scope with
    | error error => rfl
    | ok scope =>
      simp only [Outcome.ok_bind]
      cases RelatedExistence.compile subquery scope { link, negated := false, connective } <;> rfl
  | filterAggregate connective key value =>
    refine exec_check_bind fun (label, operator) => ?_
    cases operator with
    | compare comparison =>
      change exec (if value.isNull then _ else _) q = _
      split
      · rfl
      · change exec (look _ >>= _) q = _
        rw [exec_bind, exec_look]
        cases named : q.aggregateNamed? label <;> simp only [named] <;> rfl
    | _ => rfl
  | orderByAggregate label direction =>
    unfold edit applyUsing orderByAggregate
    rw [exec_bind, exec_look]
    cases named : q.aggregateNamed? label <;> rfl
  | fail error => rfl
  | attempt step =>
    unfold edit applyUsing
    rw [exec_ignore, exec_edit step q]
    rcases q.applyUsing subquery step with ⟨_, _ | _⟩ <;> rfl

theorem exec_edits (config : Config) (calls : List Step) :
    exec (calls.forM fun call => ignore (edit compileSubquery call)) (empty config) =
      (.ok (), built config calls) := by
  suffices run : ∀ q : Query, exec (calls.forM fun call => ignore (edit compileSubquery call)) q =
      (.ok (), calls.foldl (fun q call => (q.apply call).1) q) from run _
  induction calls with
  | nil => exact fun q => rfl
  | cons call rest ih =>
    intro q
    have first : exec (ignore (edit compileSubquery call)) q = (.ok (), (q.apply call).1) := by
      rw [exec_ignore, exec_edit]
      unfold apply
      rcases q.applyUsing compileSubquery call with ⟨_, _ | _⟩ <;> rfl
    change exec (ignore _ >>= fun _ => rest.forM _) q = _
    rw [exec_bind, first]
    exact ih _

/-- All checks of a step stand before its first write, unless it ends a group. -/
theorem atomic_edit {step : Step} (h : step ≠ .closeGroup) : Atomic (edit subquery step) := by
  cases step with
  | fromTable table => exact atomic_check_bind _ fun _ => atomic_write _
  | select column => exact atomic_check_bind _ fun _ => atomic_write _
  | join kind table left right =>
    exact atomic_check_bind _ fun _ => atomic_check_bind _ fun _ => atomic_check_bind _ fun _ =>
      atomic_write _
  | filter connective key value =>
    exact atomic_check_bind _ fun _ => atomic_check_bind _ fun _ => atomic_write _
  | filterIn connective negated column values =>
    exact atomic_check_bind _ fun _ => atomic_write _
  | openGroup connective negated => exact atomic_write _
  | closeGroup => exact absurd rfl h
  | orderBy column direction => exact atomic_check_bind _ fun _ => atomic_write _
  | limit count => exact atomic_write _
  | offset count => exact atomic_write _
  | countAll => exact atomic_write _
  | load cardinality edge => exact atomic_check_bind _ fun _ => atomic_write _
  | aggregate kind edge column =>
    refine atomic_check_bind _ fun link => atomic_check_bind _ fun operand =>
      atomic_look_bind _ fun taken => ?_
    cases taken with
    | true => exact atomic_throw _
    | false => exact atomic_write _
  | filterCount connective edge operator count =>
    refine atomic_check_bind _ fun link => ?_
    cases Comparison.parse? operator.toList with
    | none => exact atomic_throw _
    | some comparison =>
      by_cases negative : count < 0
      · simp only [if_pos negative]
        exact atomic_throw _
      · simp only [if_neg negative]
        exact atomic_write _
  | filterExists connective negated edge =>
    refine atomic_check_bind _ fun link => atomic_look_bind _ fun depth => ?_
    split
    · exact atomic_write _
    · -- A place is reserved and the queue grows; between the two nothing can fail.
      exact atomic_look_bind _ fun slot => ((sure_write _).bind fun _ => sure_write _).atomic
  | filterExistsNow connective edge =>
    exact atomic_check_bind _ fun _ => atomic_look_bind _ fun _ => atomic_write _
  | filterAggregate connective key value =>
    refine atomic_check_bind _ fun (label, operator) => ?_
    cases operator with
    | compare comparison =>
      by_cases missing : value.isNull
      · simp only [if_pos missing]
        exact atomic_throw _
      · simp only [if_neg missing]
        refine atomic_look_bind _ fun aggregate? => ?_
        cases aggregate? with
        | none => exact atomic_throw _
        | some aggregate => exact atomic_write _
    | _ => exact atomic_throw _
  | orderByAggregate label direction =>
    refine atomic_look_bind _ fun missing => ?_
    cases missing with
    | true => exact atomic_throw _
    | false => exact atomic_write _
  | fail error => exact atomic_throw _
  | attempt step => exact (sure_ignore _).atomic

/-- A call that fails, unless it ends a group, has written nothing by then: made in place, too, it
leaves the query as it was, with all that is pending and the same statement. Whatever calls come
later, it is as if it had not been made, also where a refinement goes on after it. -/
theorem unchanged_of_failure (q : Query) (step : Step) (error : Error) (stays : step ≠ .closeGroup)
    (failed : (q.applyUsing subquery step).2 = some error) :
    exec (edit subquery step) q = (.error error, q) ∧
    (q.applyUsing subquery step).1 = q ∧
    (q.applyUsing subquery step).1.pending = q.pending ∧
    (q.applyUsing subquery step).1.sql = q.sql ∧
    ∀ later : List Step,
      (step :: later).foldl (fun q step => (q.applyUsing subquery step).1) q =
        later.foldl (fun q step => (q.applyUsing subquery step).1) q ∧
      q.refineUsing subquery (.attempt step :: later) = q.refineUsing subquery later := by
  have same := exec_edit subquery step q
  rcases went : q.applyUsing subquery step with ⟨after, outcome⟩
  obtain rfl : outcome = some error := by simpa [went] using failed
  rw [went] at same
  obtain rfl : after = q := atomic_edit subquery stays q error after same
  refine ⟨same, rfl, rfl, rfl, fun later => ⟨?_, ?_⟩⟩
  · rw [List.foldl_cons, went]
  · have attempted : after.applyUsing subquery (.attempt step) = (after, none) := by
      rw [applyUsing, went]
    rw [refineUsing, attempted]

def unfinished : Query := built {} [
  .fromTable "users",
  .openGroup .and false,
  .filterExists .and false { target := "orders", foreign := ["user_id"], own := ["id"] }]

def brokenExists : Step :=
  .filterExistsNow .or {
    target := "payments", foreign := ["user_id"], own := ["id"]
    refinement := some [
      .filterExistsNow .and { target := "refunds", foreign := ["payment_id"], own := ["id"] },
      .filter .and "amount >" (.text "9"),
      .filter .and "amount ~" (.text "9")] }

theorem unfinished_unchanged_of_failure :
    exec (edit compileSubquery brokenExists) unfinished =
      (.error (.parameter (.unsupportedOperator "~")), unfinished) ∧
    (unfinished.apply brokenExists).1 = unfinished ∧ unfinished.pending = 1 := by
  obtain ⟨inPlace, same, _⟩ := unchanged_of_failure compileSubquery unfinished brokenExists
    (.parameter (.unsupportedOperator "~")) nofun (by decide +kernel)
  exact ⟨inPlace, same, by decide +kernel⟩

/-- The end of a group is another matter: the condition that waited is out of the queue when its
refinement fails. -/
example : ¬Atomic (edit compileSubquery .closeGroup) := by
  intro atomic
  let q := built {} [
    .fromTable "users",
    .openGroup .and false,
    .filterExists .and false {
      target := "orders", foreign := ["user_id"], own := ["id"]
      refinement := some [.filter .and "total ~" (.text "9")] }]
  have failed : (exec (edit compileSubquery .closeGroup) q).1 =
      .error (.parameter (.unsupportedOperator "~")) := rfl
  have same : (exec (edit compileSubquery .closeGroup) q).2 = q :=
    atomic q _ _ (Prod.ext failed rfl)
  have lost : (exec (edit compileSubquery .closeGroup) q).2.pending ≠ q.pending := by
    decide +kernel
  exact lost (congrArg pending same)

end Query

end RelationQuery
