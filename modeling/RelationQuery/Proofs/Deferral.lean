import RelationQuery.Proofs.Fragment
import RelationQuery.Proofs.Reserved

/-! Conditions that wait for their group to close. Main statement: a run with conditions waiting
and the run in which none waits go through together, and end in the same query. -/
namespace RelationQuery

def Step.declaresExistence : Step → Bool
  | .filterExists .. | .filterExistsNow .. => true
  | .attempt step => step.declaresExistence
  | _ => false

def TableFirst (steps : List Step) : Prop :=
  steps.Pairwise fun earlier later => earlier.declaresExistence → ¬later.setsTable

namespace Query

def filterExistsHere (subquery : SubqueryCompiler) (connective : Connective) (negated : Bool)
    (edge : Edge Refinement) (q : Query) : Except Error Query := do
  let existence : RelatedExistence := { link := ← edge.link, negated, connective }
  let condition ← existence.compile subquery (← q.scope)
  return { q with statement := q.statement.addCondition connective condition }

/-- What a step leaves when, if `prompt`, an existence condition inside a group is compiled where
it is declared. -/
def applyPromptly (subquery : SubqueryCompiler) (prompt : Bool) (step : Step) (q : Query) :
    Query × Option Error :=
  match step with
  | .filterExists connective negated edge =>
    if prompt ∧ q.statement.openGroups ≠ 0 then
      q.orUnchanged (q.filterExistsHere subquery connective negated edge)
    else q.applyUsing subquery (.filterExists connective negated edge)
  | step => q.applyUsing subquery step

def refinePromptly (subquery : SubqueryCompiler) : List (Step × Bool) → Query → Except Error Query
  | [], q => .ok q
  | (step, prompt) :: rest, q =>
    match q.applyPromptly subquery prompt step with
    | (q, none) => refinePromptly subquery rest q
    | (_, some error) => .error error

def completed (meant : Nat → Condition) (slots : Nat) (q : Query) : Query :=
  { q with
    deferrals := []
    statement := { q.statement with conditions := q.statement.conditions.complete meant, slots } }

def Within (q : Query) : Prop :=
  ∀ deferred ∈ q.deferrals, deferred.depth ≠ 0 ∧ deferred.depth ≤ q.statement.openGroups

/-- The conditions that wait are those that places are reserved for, each in a group that is still
open. -/
structure Waiting (q : Query) : Prop where
  slots : q.statement.conditions.slots.Perm (q.deferrals.map Deferred.slot)
  fresh : ∀ deferred ∈ q.deferrals, deferred.slot < q.statement.slots
  within : q.Within

def Compiles (subquery : SubqueryCompiler) (meant : Nat → Condition) (q : Query)
    (deferrals : List Deferred) : Prop :=
  ∀ deferred ∈ deferrals, ∃ scope, q.scope = .ok scope ∧
    deferred.existence.compile subquery scope = .ok (meant deferred.slot)

variable {subquery : SubqueryCompiler} {q after : Query} {meant : Nat → Condition}

theorem put_completed (fragment : Fragment) (slots : Nat) :
    (q.completed meant slots).put fragment = (q.put fragment).completed meant slots := by
  cases fragment with
  | entry entry =>
    cases entry with
    | closing =>
      simp [put, completed, onStatement, Statement.put, Clause.complete, Clause.map_closeGroup]
    | item | opening =>
      simp [put, completed, onStatement, Statement.put, Statement.addCondition,
        Statement.openGroup, Clause.add, Clause.openGroup, Clause.complete, Entry.map,
        Place.complete]
  | _ => rfl

theorem Within.put (h : q.Within) {fragment : Fragment} (opens : fragment ≠ .entry .closing) :
    (q.put fragment).Within := by
  cases fragment with
  | entry entry =>
    cases entry with
    | closing => exact absurd rfl opens
    | item connective condition => exact h
    | opening connective negated =>
      exact fun deferred member => (h deferred member).imp_right Nat.le_succ_of_le
  | _ => exact h

theorem Waiting.put (h : q.Waiting) {fragment : Fragment} (opens : fragment ≠ .entry .closing) :
    (q.put fragment).Waiting := by
  refine ⟨?_, ?_, h.within.put opens⟩
  · rw [deferrals_put]
    cases fragment with
    | entry entry =>
      cases entry with
      | closing => exact absurd rfl opens
      | item | opening =>
        simpa [Query.put, onStatement, Statement.put, Statement.addCondition,
          Statement.openGroup] using h.slots
    | _ => exact h.slots
  · rw [deferrals_put]
    cases fragment with
    | entry entry => cases entry <;> exact h.fresh
    | _ => exact h.fresh

theorem Waiting.idle (h : q.Waiting) (closed : q.statement.openGroups = 0) :
    q.deferrals = [] ∧ q.statement.conditions.slots = [] := by
  have idle : q.deferrals = [] := by
    refine List.eq_nil_iff_forall_not_mem.2 fun deferred member => ?_
    obtain ⟨inside, opened⟩ := h.within deferred member
    exact inside (Nat.le_zero.1 (closed ▸ opened))
  have slots := h.slots
  rw [idle] at slots
  exact ⟨idle, slots.eq_nil⟩

theorem Compiles.put {deferrals : List Deferred} (h : q.Compiles subquery meant deferrals)
    {fragment : Fragment} (keeps : ∀ table, fragment ≠ .table table) :
    (q.put fragment).Compiles subquery meant deferrals := by
  unfold Compiles
  rw [scope_put keeps]
  exact h

theorem settle_of_compiles {ready : List Deferred} (compiles : q.Compiles subquery meant ready)
    (slots : q.statement.conditions.slots.Perm ((ready ++ q.deferrals).map Deferred.slot)) :
    ∃ conditions : Clause Place,
      q.settle subquery ready =
        ({ q with statement := { q.statement with conditions } }, none) ∧
      conditions.slots.Perm (q.deferrals.map Deferred.slot) ∧
      conditions.complete meant = q.statement.conditions.complete meant := by
  induction ready generalizing q with
  | nil => exact ⟨q.statement.conditions, rfl, slots, rfl⟩
  | cons deferred rest ih =>
    obtain ⟨scope, known, compiled⟩ := compiles deferred List.mem_cons_self
    have reserved : deferred.slot ∈ q.statement.conditions.slots := slots.symm.subset (by simp)
    obtain ⟨filled, found, less⟩ := Clause.exists_fill? reserved (meant deferred.slot)
    let next : Query := { q with statement := { q.statement with conditions := filled } }
    have more : next.Compiles subquery meant rest :=
      fun other member => compiles other (List.mem_cons_of_mem _ member)
    obtain ⟨conditions, settled, remain, same⟩ := ih more (less.symm.trans slots).cons_inv
    refine ⟨conditions, ?_, remain, same.trans (Clause.complete_of_fill? found)⟩
    rw [settle, known, Outcome.ok_bind, compiled, Outcome.ok_bind, Statement.fill, found]
    exact settled

theorem of_settle {ready : List Deferred} (h : q.settle subquery ready = (after, none)) :
    (∀ deferred ∈ ready, ∃ scope condition, q.scope = .ok scope ∧
      deferred.existence.compile subquery scope = .ok condition) ∧
    ∃ conditions, after = { q with statement := { q.statement with conditions } } := by
  induction ready generalizing q with
  | nil =>
    obtain rfl : q = after := congrArg Prod.fst h
    exact ⟨nofun, q.statement.conditions, rfl⟩
  | cons deferred rest ih =>
    unfold settle at h
    dsimp only at h
    split at h
    · next statement filled =>
      obtain ⟨scope, known, filled⟩ := Outcome.exists_of_bind filled
      obtain ⟨condition, compiled, filled⟩ := Outcome.exists_of_bind filled
      obtain ⟨_, _, rfl⟩ := Statement.exists_of_fill filled
      obtain ⟨later, conditions, rfl⟩ := ih h
      refine ⟨fun other member => ?_, conditions, rfl⟩
      rcases List.mem_cons.1 member with rfl | more
      · exact ⟨scope, condition, known, compiled⟩
      · exact later other more
    · cases h

def inner (q : Query) : List Deferred :=
  q.deferrals.filter (q.statement.openGroups ≤ ·.depth)

def outer (q : Query) : Query :=
  { q with deferrals := q.deferrals.filter (·.depth < q.statement.openGroups) }

theorem not_inner : (fun deferred : Deferred => !decide (q.statement.openGroups ≤ deferred.depth)) =
    fun deferred => decide (deferred.depth < q.statement.openGroups) := by
  funext deferred
  rw [Bool.eq_iff_iff]
  simp

theorem perm_inner_outer (q : Query) : (q.inner ++ q.outer.deferrals).Perm q.deferrals := by
  have split := List.filter_append_perm (fun deferred : Deferred =>
    decide (q.statement.openGroups ≤ deferred.depth)) q.deferrals
  rwa [not_inner] at split

theorem closeGroup_eq (opened : q.statement.openGroups ≠ 0) :
    q.closeGroup subquery =
      match q.outer.settle subquery q.inner with
      | (settled, some error) => (settled, some error)
      | (settled, none) =>
        match settled.statement.closeGroup with
        | .ok statement => ({ settled with statement }, none)
        | .error error => (settled, some error) := by
  unfold closeGroup
  dsimp only
  rw [if_neg opened, List.partition_eq_filter_filter]
  have rest : (not ∘ fun deferred : Deferred => decide (q.statement.openGroups ≤ deferred.depth)) =
      fun deferred => decide (deferred.depth < q.statement.openGroups) := not_inner
  rw [rest]
  rfl

theorem closeGroup_of_settle {conditions : Clause Place} (opened : q.statement.openGroups ≠ 0)
    (settled : q.outer.settle subquery q.inner =
      ({ q.outer with statement := { q.statement with conditions } }, none)) :
    q.closeGroup subquery =
      (put { q.outer with statement := { q.statement with conditions } } (.entry .closing),
        none) := by
  rw [closeGroup_eq opened, settled]
  simp only [Statement.closeGroup, opened, if_false]
  rfl

theorem of_closeGroup (h : q.closeGroup subquery = (after, none)) :
    q.statement.openGroups ≠ 0 ∧
    (∀ deferred ∈ q.inner, ∃ scope condition, q.scope = .ok scope ∧
      deferred.existence.compile subquery scope = .ok condition) ∧
    ∃ conditions, after =
      put { q.outer with statement := { q.statement with conditions } } (.entry .closing) := by
  by_cases opened : q.statement.openGroups = 0
  · unfold closeGroup at h
    rw [if_pos opened] at h
    cases h
  · rcases settled : q.outer.settle subquery q.inner with ⟨next, _ | error⟩
    · obtain ⟨compiled, conditions, rfl⟩ := of_settle settled
      rw [closeGroup_of_settle opened settled] at h
      exact ⟨opened, compiled, conditions, (congrArg Prod.fst h).symm⟩
    · rw [closeGroup_eq opened, settled] at h
      cases h

theorem within_of_closeGroup (h : q.Within) (closes : q.closeGroup subquery = (after, none)) :
    after.Within := by
  obtain ⟨opened, _, conditions, rfl⟩ := of_closeGroup closes
  intro deferred member
  obtain ⟨member, outside⟩ := List.mem_filter.1 member
  have shallow := of_decide_eq_true outside
  refine ⟨(h deferred member).1, ?_⟩
  change deferred.depth ≤ q.statement.openGroups - 1
  omega

theorem closeGroup_of_compiles (waiting : q.Waiting)
    (compiles : q.Compiles subquery meant q.deferrals) (opened : q.statement.openGroups ≠ 0)
    (slots : Nat) : ∃ after, q.closeGroup subquery = (after, none) ∧ after.Waiting ∧
      after.Compiles subquery meant after.deferrals ∧
      (q.completed meant slots).closeGroup subquery = (after.completed meant slots, none) := by
  obtain ⟨conditions, settled, remain, same⟩ := q.outer.settle_of_compiles
    (fun deferred member => compiles deferred (List.mem_filter.1 member).1)
    (waiting.slots.trans (q.perm_inner_outer.symm.map _))
  have closes := closeGroup_of_settle opened settled
  refine ⟨_, closes, ⟨?_, ?_, within_of_closeGroup waiting.within closes⟩, ?_, ?_⟩
  · change Clause.slots (Clause.closeGroup conditions) |>.Perm _
    rw [Clause.slots_closeGroup]
    exact remain
  · exact fun deferred member => waiting.fresh deferred (List.mem_filter.1 member).1
  · exact fun deferred member => compiles deferred (List.mem_filter.1 member).1
  · have bare : (q.completed meant slots).outer.settle subquery (q.completed meant slots).inner =
        ({ (q.completed meant slots).outer with
            statement := { (q.completed meant slots).statement with
              conditions := q.statement.conditions.complete meant } }, none) := rfl
    have same : conditions.complete meant = q.statement.conditions.complete meant := same
    have closes : (q.completed meant slots).closeGroup subquery = _ :=
      closeGroup_of_settle opened bare
    rw [closes, ← put_completed, ← same]
    rfl

def defer (existence : RelatedExistence) (q : Query) : Query :=
  { q with
    statement := (q.statement.reserve existence.connective).2
    deferrals := q.deferrals ++
      [{ slot := q.statement.slots, depth := q.statement.openGroups, existence }] }

theorem filterExistsHere_eq_put (connective : Connective) (negated : Bool) (edge : Edge Refinement)
    (opened : q.statement.openGroups ≠ 0) : q.filterExistsHere subquery connective negated edge =
      q.put <$> q.fragment subquery (.filterExists connective negated edge) := by
  unfold filterExistsHere fragment Step.fragment
  simp only [map_bind, opened, if_false]
  rfl

theorem filterExists_eq_defer (connective : Connective) (negated : Bool) (edge : Edge Refinement)
    (opened : q.statement.openGroups ≠ 0) : q.filterExists connective negated edge =
      (fun link => q.defer { link, negated, connective }) <$> edge.link := by
  unfold filterExists
  rw [map_eq_pure_bind]
  refine bind_congr fun link => ?_
  simp only [opened, if_false]
  rfl

theorem applyPromptly_eq {step : Step} (prompt : Bool) (call : step.isCall)
    (closes : step ≠ .closeGroup) :
    q.applyPromptly subquery prompt step = q.orUnchanged (q.put <$> q.fragment subquery step) ∨
    ∃ connective negated edge, step = .filterExists connective negated edge ∧ prompt = false ∧
      q.statement.openGroups ≠ 0 ∧ q.applyPromptly subquery prompt step =
        q.orUnchanged ((fun link => q.defer { link, negated, connective }) <$> edge.link) := by
  cases step with
  | filterExists connective negated edge =>
    unfold applyPromptly
    dsimp only
    by_cases opened : q.statement.openGroups = 0
    · left
      rw [if_neg (by simp [opened])]
      exact applyUsing_eq_put subquery q call closes fun _ _ _ _ => opened
    · cases prompt with
      | true =>
        left
        rw [if_pos ⟨rfl, opened⟩, filterExistsHere_eq_put _ _ _ opened]
      | false =>
        right
        refine ⟨connective, negated, edge, rfl, rfl, opened, ?_⟩
        rw [if_neg (by simp), ← filterExists_eq_defer _ _ _ opened]
        rfl
  | _ => exact .inl (applyUsing_eq_put subquery q call closes nofun)

inductive Advances (subquery : SubqueryCompiler) (prompt : Bool) (q : Query) :
    Step → Query → Prop
  | put {step : Step} {fragment : Fragment} (gives : q.fragment subquery step = .ok fragment)
    (opens : fragment ≠ .entry .closing) : Advances subquery prompt q step (q.put fragment)
  | defer {connective : Connective} {negated : Bool} {edge : Edge Refinement}
    {link : Link Refinement} (checked : edge.link = .ok link)
    (opened : q.statement.openGroups ≠ 0) (waits : prompt = false) :
    Advances subquery prompt q (.filterExists connective negated edge)
      (q.defer { link, negated, connective })
  | closeGroup {after : Query} (closes : q.closeGroup subquery = (after, none)) :
    Advances subquery prompt q .closeGroup after

theorem exists_of_orUnchanged {outcome : Except Error Query}
    (h : q.orUnchanged outcome = (after, none)) : outcome = .ok after := by
  cases outcome with
  | error error => cases h
  | ok held =>
    cases h
    rfl

theorem advances_of_applyPromptly {step : Step} {prompt : Bool} (call : step.isCall)
    (h : q.applyPromptly subquery prompt step = (after, none)) :
    q.Advances subquery prompt step after := by
  by_cases closes : step = .closeGroup
  · subst closes
    exact .closeGroup h
  rcases applyPromptly_eq prompt call closes with
    put | ⟨connective, negated, edge, rfl, waits, opened, defer⟩
  · rw [put] at h
    obtain ⟨fragment, gives, rfl⟩ := Outcome.exists_of_map (exists_of_orUnchanged h)
    exact .put gives ((Step.gives_of_fragment gives).ne_closing call closes)
  · rw [defer] at h
    obtain ⟨link, checked, rfl⟩ := Outcome.exists_of_map (exists_of_orUnchanged h)
    exact .defer checked opened waits

theorem openGroups_advances {step : Step} {prompt : Bool} (call : step.isCall)
    (h : q.Advances subquery prompt step after) :
    after.statement.openGroups = step.groups q.statement.openGroups := by
  cases h with
  | put gives => exact openGroups_put (Step.gives_of_fragment gives) call q
  | defer => rfl
  | closeGroup closes =>
    obtain ⟨_, _, conditions, rfl⟩ := of_closeGroup closes
    rfl

theorem scope_advances {step : Step} {prompt : Bool} (call : step.isCall)
    (keeps : ¬step.setsTable) (h : q.Advances subquery prompt step after) :
    after.scope = q.scope := by
  cases h with
  | put gives => exact scope_put ((Step.gives_of_fragment gives).ne_table keeps)
  | defer => rfl
  | closeGroup closes =>
    obtain ⟨_, _, conditions, rfl⟩ := of_closeGroup closes
    rfl

theorem Within.advances (h : q.Within) {step : Step} {prompt : Bool}
    (next : q.Advances subquery prompt step after) : after.Within := by
  cases next with
  | put gives opens => exact h.put opens
  | defer _ opened =>
    intro deferred member
    rcases List.mem_append.1 member with held | new
    · exact h deferred held
    · obtain rfl := List.mem_singleton.1 new
      exact ⟨opened, Nat.le_refl _⟩
  | closeGroup closes => exact within_of_closeGroup h closes

theorem mem_deferrals_advances {step : Step} {prompt : Bool}
    (h : q.Advances subquery prompt step after) {deferred : Deferred}
    (member : deferred ∈ q.deferrals) :
    deferred ∈ after.deferrals ∨ ∃ scope condition, q.scope = .ok scope ∧
      deferred.existence.compile subquery scope = .ok condition := by
  cases h with
  | put => exact .inl (by rwa [deferrals_put])
  | defer => exact .inl (List.mem_append_left _ member)
  | closeGroup closes =>
    obtain ⟨_, compiled, conditions, rfl⟩ := of_closeGroup closes
    by_cases inside : q.statement.openGroups ≤ deferred.depth
    · exact .inr (compiled deferred (List.mem_filter.2 ⟨member, decide_eq_true inside⟩))
    · exact .inl (List.mem_filter.2 ⟨member, decide_eq_true (Nat.lt_of_not_le inside)⟩)

theorem exists_of_refineUsing {step : Step} {rest : Refinement}
    (h : q.refineUsing subquery (step :: rest) = .ok after) :
    ∃ next, q.applyUsing subquery step = (next, none) ∧
      next.refineUsing subquery rest = .ok after := by
  unfold refineUsing at h
  split at h
  · next next went => exact ⟨next, went, h⟩
  · cases h

theorem exists_of_refinePromptly {step : Step} {prompt : Bool} {rest : List (Step × Bool)}
    (h : q.refinePromptly subquery ((step, prompt) :: rest) = .ok after) :
    ∃ next, q.applyPromptly subquery prompt step = (next, none) ∧
      next.refinePromptly subquery rest = .ok after := by
  unfold refinePromptly at h
  split at h
  · next next went => exact ⟨next, went, h⟩
  · cases h

theorem compiles_of_refinePromptly {marked : List (Step × Bool)}
    (calls : ∀ call ∈ marked, call.1.isCall) (keeps : ∀ call ∈ marked, ¬call.1.setsTable)
    (within : q.Within) (h : q.refinePromptly subquery marked = .ok after)
    (closed : after.statement.openGroups = 0) :
    ∀ deferred ∈ q.deferrals, ∃ scope condition, q.scope = .ok scope ∧
      deferred.existence.compile subquery scope = .ok condition := by
  induction marked generalizing q with
  | nil =>
    cases h
    intro deferred member
    obtain ⟨inside, opened⟩ := within deferred member
    exact absurd (Nat.le_zero.1 (closed ▸ opened)) inside
  | cons call rest ih =>
    obtain ⟨next, went, h⟩ := exists_of_refinePromptly h
    have advances := advances_of_applyPromptly (calls call List.mem_cons_self) went
    intro deferred member
    rcases mem_deferrals_advances advances member with waits | compiled
    · have later := ih (fun call member => calls call (List.mem_cons_of_mem _ member))
        (fun call member => keeps call (List.mem_cons_of_mem _ member)) (within.advances advances)
        h deferred waits
      rwa [scope_advances (calls call List.mem_cons_self) (keeps call List.mem_cons_self) advances]
        at later
    · exact compiled

theorem Waiting.defer (h : q.Waiting) (opened : q.statement.openGroups ≠ 0)
    (existence : RelatedExistence) : (q.defer existence).Waiting := by
  refine ⟨?_, ?_, ?_⟩
  · change (Clause.slots (q.statement.conditions.add _ (.reserved _))).Perm _
    rw [Clause.slots_add_reserved]
    simpa [Query.defer] using h.slots.append_right [q.statement.slots]
  · intro deferred member
    rcases List.mem_append.1 member with held | new
    · exact Nat.lt_succ_of_lt (h.fresh deferred held)
    · obtain rfl := List.mem_singleton.1 new
      exact Nat.lt_succ_self _
  · intro deferred member
    rcases List.mem_append.1 member with held | new
    · exact h.within deferred held
    · obtain rfl := List.mem_singleton.1 new
      exact ⟨opened, Nat.le_refl _⟩

theorem Compiles.defer (waiting : q.Waiting) (h : q.Compiles subquery meant q.deferrals)
    {existence : RelatedExistence} {scope : Scope} {condition : Condition}
    (known : q.scope = .ok scope) (compiled : existence.compile subquery scope = .ok condition) :
    (q.defer existence).Compiles subquery (Function.update meant q.statement.slots condition)
      (q.defer existence).deferrals := by
  intro deferred member
  rcases List.mem_append.1 member with held | new
  · obtain ⟨scope, known, compiled⟩ := h deferred held
    refine ⟨scope, known, ?_⟩
    rw [Function.update_of_ne (Nat.ne_of_lt (waiting.fresh deferred held))]
    exact compiled
  · obtain rfl := List.mem_singleton.1 new
    refine ⟨scope, known, ?_⟩
    rw [Function.update_self]
    exact compiled

theorem completed_defer (waiting : q.Waiting) (meant : Nat → Condition)
    (existence : RelatedExistence) (condition : Condition) (slots : Nat) :
    (q.defer existence).completed (Function.update meant q.statement.slots condition) slots =
      (q.completed meant slots).put (.entry (.item existence.connective condition)) := by
  have old : Clause.complete (Function.update meant q.statement.slots condition)
      q.statement.conditions = q.statement.conditions.complete meant := by
    apply Clause.complete_congr
    intro slot reserved
    obtain ⟨deferred, held, rfl⟩ := List.mem_map.1 (waiting.slots.subset reserved)
    exact Function.update_of_ne (Nat.ne_of_lt (waiting.fresh deferred held)) condition meant
  have new : Clause.complete (Function.update meant q.statement.slots condition)
      (q.statement.conditions.add existence.connective (.reserved q.statement.slots)) =
      (q.statement.conditions.complete meant).add existence.connective (.ready condition) := by
    rw [← old]
    simp [Clause.complete, Clause.add, Entry.map, Place.complete]
  simp only [completed, Query.defer, Statement.reserve, new]
  rfl

theorem fragment_filterExists (connective : Connective) (negated : Bool) (edge : Edge Refinement)
    (opened : q.statement.openGroups ≠ 0) :
    q.fragment subquery (.filterExists connective negated edge) = edge.link >>= fun link =>
      q.scope >>= fun scope => RelatedExistence.compile subquery scope { link, negated, connective }
        >>= fun condition => .ok (.entry (.item connective condition)) := by
  unfold fragment Step.fragment
  simp only [opened, if_false]
  rfl

def Matches (subquery : SubqueryCompiler) (q ideal : Query) : Prop :=
  ∃ meant slots, q.Waiting ∧ q.Compiles subquery meant q.deferrals ∧
    ideal = q.completed meant slots

variable {ideal : Query}

/-- A call goes through for both queries, which stay next to each other. Or it fails for the one in
which nothing waits, and if it does not for the other, it has left a condition to wait there that
cannot be compiled. -/
def InStep (subquery : SubqueryCompiler) (prompt : Bool) (step : Step) (q ideal : Query) : Prop :=
  (∃ after idealAfter, q.applyPromptly subquery prompt step = (after, none) ∧
    ideal.applyPromptly subquery true step = (idealAfter, none) ∧
    after.Matches subquery idealAfter) ∨
  (∃ idealAfter error, ideal.applyPromptly subquery true step = (idealAfter, some error)) ∧
    ∀ after, q.applyPromptly subquery prompt step = (after, none) →
      ∃ deferred ∈ after.deferrals, ¬∃ scope condition, after.scope = .ok scope ∧
        deferred.existence.compile subquery scope = .ok condition

theorem closeGroup_of_closed (closed : q.statement.openGroups = 0) :
    q.closeGroup subquery = (q, some (.group .noneOpen)) := by
  unfold closeGroup
  exact if_pos closed

theorem inStep_closeGroup (waiting : q.Waiting)
    (compiles : q.Compiles subquery meant q.deferrals) (slots : Nat) (prompt : Bool) :
    q.InStep subquery prompt .closeGroup (q.completed meant slots) := by
  by_cases opened : q.statement.openGroups = 0
  · have ideal : (q.completed meant slots).closeGroup subquery = _ := closeGroup_of_closed opened
    refine .inr ⟨⟨_, _, ideal⟩, fun after went => ?_⟩
    cases (closeGroup_of_closed opened).symm.trans went
  · obtain ⟨after, went, waiting, compiles, ideal⟩ :=
      closeGroup_of_compiles waiting compiles opened slots
    exact .inl ⟨after, _, went, ideal, meant, slots, waiting, compiles, rfl⟩

theorem inStep_put (waiting : q.Waiting) (compiles : q.Compiles subquery meant q.deferrals)
    (slots : Nat) {step : Step} {prompt : Bool} (call : step.isCall)
    (closes : step ≠ .closeGroup) (keeps : q.deferrals ≠ [] → ¬step.setsTable)
    (put : q.applyPromptly subquery prompt step =
      q.orUnchanged (q.put <$> q.fragment subquery step))
    (idealPut : (q.completed meant slots).applyPromptly subquery true step =
      (q.completed meant slots).orUnchanged
        ((q.completed meant slots).put <$> q.fragment subquery step)) :
    q.InStep subquery prompt step (q.completed meant slots) := by
  cases gives : q.fragment subquery step with
  | error error =>
    rw [gives] at put idealPut
    refine .inr ⟨⟨_, _, idealPut⟩, fun after went => ?_⟩
    cases put.symm.trans went
  | ok fragment =>
    rw [gives] at put idealPut
    have gives := Step.gives_of_fragment gives
    refine .inl ⟨_, _, put, idealPut, meant, slots, waiting.put (gives.ne_closing call closes),
      ?_, put_completed fragment slots⟩
    rw [deferrals_put]
    intro deferred member
    have keeps := gives.ne_table (keeps (List.ne_nil_of_mem member))
    exact compiles.put keeps deferred member

theorem inStep_defer (waiting : q.Waiting) (compiles : q.Compiles subquery meant q.deferrals)
    (slots : Nat) {connective : Connective} {negated : Bool} {edge : Edge Refinement}
    {prompt : Bool} (opened : q.statement.openGroups ≠ 0)
    (defer : q.applyPromptly subquery prompt (.filterExists connective negated edge) =
      q.orUnchanged ((fun link => q.defer { link, negated, connective }) <$> edge.link))
    (idealPut : (q.completed meant slots).applyPromptly subquery true
      (.filterExists connective negated edge) = (q.completed meant slots).orUnchanged
        ((q.completed meant slots).put <$>
          q.fragment subquery (.filterExists connective negated edge))) :
    q.InStep subquery prompt (.filterExists connective negated edge)
      (q.completed meant slots) := by
  rw [fragment_filterExists connective negated edge opened] at idealPut
  cases checked : edge.link with
  | error error =>
    rw [checked] at defer idealPut
    refine .inr ⟨⟨_, _, idealPut⟩, fun after went => ?_⟩
    cases defer.symm.trans went
  | ok link =>
    rw [checked] at defer
    rw [checked, Outcome.ok_bind] at idealPut
    have fails {error : Error} (ideal : (q.completed meant slots).applyPromptly subquery true
          (.filterExists connective negated edge) = (q.completed meant slots, some error))
        (never : ¬∃ scope condition, q.scope = .ok scope ∧
          RelatedExistence.compile subquery scope { link, negated, connective } = .ok condition) :
        q.InStep subquery prompt (.filterExists connective negated edge)
          (q.completed meant slots) := by
      refine .inr ⟨⟨_, _, ideal⟩, fun after went => ?_⟩
      obtain rfl := congrArg Prod.fst (defer.symm.trans went)
      exact ⟨_, List.mem_append_right _ (List.mem_singleton.2 rfl), never⟩
    cases known : q.scope with
    | error error =>
      rw [known] at idealPut
      exact fails idealPut (by simp [known])
    | ok scope =>
      rw [known, Outcome.ok_bind] at idealPut
      cases compiled : RelatedExistence.compile subquery scope { link, negated, connective } with
      | error error =>
        rw [compiled] at idealPut
        exact fails idealPut (by simp [known, compiled])
      | ok condition =>
        rw [compiled] at idealPut
        have completes := completed_defer waiting meant { link, negated, connective }
          condition slots
        exact .inl ⟨_, _, defer, idealPut, _, slots, waiting.defer opened _,
          compiles.defer waiting known compiled, completes.symm⟩

theorem Matches.inStep (h : q.Matches subquery ideal) {step : Step} (call : step.isCall)
    (keeps : q.deferrals ≠ [] → ¬step.setsTable) (prompt : Bool) :
    q.InStep subquery prompt step ideal := by
  obtain ⟨meant, slots, waiting, compiles, rfl⟩ := h
  by_cases closes : step = .closeGroup
  · subst closes
    exact inStep_closeGroup waiting compiles slots prompt
  have idealPut : (q.completed meant slots).applyPromptly subquery true step =
      (q.completed meant slots).orUnchanged
        ((q.completed meant slots).put <$> q.fragment subquery step) :=
    (applyPromptly_eq true call closes).resolve_right fun ⟨_, _, _, _, waits, _⟩ => nomatch waits
  rcases applyPromptly_eq prompt call closes with
    put | ⟨connective, negated, edge, rfl, _, opened, defer⟩
  · exact inStep_put waiting compiles slots call closes keeps put idealPut
  · exact inStep_defer waiting compiles slots opened defer idealPut

/-- No table is set while a condition on related rows waits, nor after one is declared. -/
def Steady (q : Query) (steps : List Step) : Prop :=
  (q.deferrals ≠ [] → ∀ step ∈ steps, ¬step.setsTable) ∧ TableFirst steps

theorem Steady.advances {step : Step} {rest : List Step} (h : q.Steady (step :: rest))
    {prompt : Bool} (next : q.Advances subquery prompt step after) : after.Steady rest := by
  obtain ⟨later, ordered⟩ := List.pairwise_cons.1 h.2
  refine ⟨fun waits => ?_, ordered⟩
  have still (held : q.deferrals ≠ []) : ∀ step ∈ rest, ¬step.setsTable :=
    fun step member => h.1 held step (List.mem_cons_of_mem _ member)
  cases next with
  | put => exact still (by rwa [deferrals_put] at waits)
  | defer => exact fun other member => later other member rfl
  | closeGroup closes =>
    obtain ⟨_, _, conditions, rfl⟩ := of_closeGroup closes
    refine still fun idle => waits ?_
    change q.deferrals.filter _ = []
    rw [idle, List.filter_nil]

theorem refinePromptly_cons {step : Step} {prompt : Bool} {rest : List (Step × Bool)}
    (h : q.applyPromptly subquery prompt step = (after, none)) :
    q.refinePromptly subquery ((step, prompt) :: rest) = after.refinePromptly subquery rest := by
  rw [refinePromptly, h]

/-- A run that ends outside of groups is a run also when nothing waits. -/
theorem Matches.follows (h : q.Matches subquery ideal) {marked : List (Step × Bool)}
    (calls : ∀ call ∈ marked, call.1.isCall) (steady : q.Steady (marked.map Prod.fst))
    (runs : q.refinePromptly subquery marked = .ok after)
    (closed : after.statement.openGroups = 0) :
    ∃ idealAfter, ideal.refinePromptly subquery (marked.map fun call => (call.1, true)) =
      .ok idealAfter ∧ after.Matches subquery idealAfter := by
  induction marked generalizing q ideal with
  | nil =>
    cases runs
    exact ⟨ideal, rfl, h⟩
  | cons call rest ih =>
    have others : ∀ call ∈ rest, call.1.isCall :=
      fun call member => calls call (List.mem_cons_of_mem _ member)
    obtain ⟨next, went, runs⟩ := exists_of_refinePromptly runs
    have advances := advances_of_applyPromptly (calls call List.mem_cons_self) went
    have later := steady.advances advances
    rcases h.inStep (calls call List.mem_cons_self)
      (fun waits => steady.1 waits call.1 List.mem_cons_self) call.2 with
      ⟨_, idealNext, same, ideal, h⟩ | ⟨_, never⟩
    · obtain rfl := congrArg Prod.fst (went.symm.trans same)
      obtain ⟨idealAfter, idealRuns, h⟩ := ih h others later runs
      refine ⟨idealAfter, ?_, h⟩
      rw [List.map_cons, refinePromptly_cons ideal]
      exact idealRuns
    · obtain ⟨deferred, member, never⟩ := never next went
      obtain ⟨_, _, waiting, _, _⟩ := h
      have keeps : ∀ call ∈ rest, ¬call.1.setsTable := fun call held =>
        later.1 (List.ne_nil_of_mem member) call.1 (List.mem_map_of_mem held)
      exact absurd (compiles_of_refinePromptly others keeps (waiting.within.advances advances) runs
        closed deferred member) never

/-- A run in which nothing waits is a run whatever waits. -/
theorem Matches.leads (h : q.Matches subquery ideal) {marked : List (Step × Bool)}
    (calls : ∀ call ∈ marked, call.1.isCall) (steady : q.Steady (marked.map Prod.fst))
    {idealAfter : Query} (runs : ideal.refinePromptly subquery
      (marked.map fun call => (call.1, true)) = .ok idealAfter) :
    ∃ after, q.refinePromptly subquery marked = .ok after ∧
      after.Matches subquery idealAfter := by
  induction marked generalizing q ideal with
  | nil =>
    cases runs
    exact ⟨q, rfl, h⟩
  | cons call rest ih =>
    obtain ⟨idealNext, ideal, runs⟩ := exists_of_refinePromptly runs
    rcases h.inStep (calls call List.mem_cons_self)
      (fun waits => steady.1 waits call.1 List.mem_cons_self) call.2 with
      ⟨next, _, went, same, h⟩ | ⟨⟨_, _, fails⟩, _⟩
    · obtain rfl := congrArg Prod.fst (ideal.symm.trans same)
      have advances := advances_of_applyPromptly (calls call List.mem_cons_self) went
      obtain ⟨after, continues, h⟩ := ih h
        (fun call member => calls call (List.mem_cons_of_mem _ member)) (steady.advances advances)
        runs
      exact ⟨after, (refinePromptly_cons went).trans continues, h⟩
    · cases ideal.symm.trans fails

end Query

end RelationQuery
