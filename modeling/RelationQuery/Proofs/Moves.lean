import Mathlib.Logic.Relation
import RelationQuery.Proofs.Deferral

/-! What a step can do to a query, failing ones included. Main statement: it comes down to a few
moves, from which everything that runs keep is shown. -/
namespace RelationQuery

inductive Step.Defers : Step → RelatedExistence → Prop
  | filterExists {edge : Edge Refinement} {link : Link Refinement} (connective : Connective)
    (negated : Bool) (checked : edge.link = .ok link) :
    Defers (.filterExists connective negated edge) { link, negated, connective }
  | attempt {step : Step} {existence : RelatedExistence} (defers : Defers step existence) :
    Defers (.attempt step) existence

namespace Query

/-- A step adds a fragment, leaves a condition waiting, puts one that waited in its place, or lets
some go that waited. -/
inductive Moves (subquery : SubqueryCompiler) (step : Step) : Query → Query → Prop
  | put {q : Query} {fragment : Fragment}
    (gives : step.Gives subquery q.scope q.aggregates fragment) :
    Moves subquery step q (q.put fragment)
  | defer {q : Query} {existence : RelatedExistence} (defers : step.Defers existence) :
    Moves subquery step q (q.defer existence)
  | fill {q : Query} {deferred : Deferred} {scope : Scope} {condition : Condition}
    {statement : Statement} (held : deferred ∈ q.deferrals) (known : q.scope = .ok scope)
    (compiled : deferred.existence.compile subquery scope = .ok condition)
    (fills : q.statement.fill deferred.slot condition = .ok statement) :
    Moves subquery step q { q with statement }
  | drop {q : Query} {deferrals : List Deferred} (fewer : deferrals ⊆ q.deferrals) :
    Moves subquery step q { q with deferrals }

abbrev Leads (subquery : SubqueryCompiler) (step : Step) : Query → Query → Prop :=
  Relation.ReflTransGen (Moves subquery step)

variable {subquery : SubqueryCompiler}

theorem Moves.attempt {step : Step} {q after : Query} (h : q.Moves subquery step after) :
    q.Moves subquery (.attempt step) after := by
  cases h with
  | put gives => exact .put (.attempt gives)
  | defer defers => exact .defer (.attempt defers)
  | fill held known compiled fills => exact .fill held known compiled fills
  | drop fewer => exact .drop fewer

theorem settle_with (ready deferrals : List Deferred) (q : Query) :
    settle subquery ready { q with deferrals } =
      ({ (q.settle subquery ready).1 with deferrals }, (q.settle subquery ready).2) := by
  induction ready generalizing q with
  | nil => rfl
  | cons deferred rest ih =>
    have scope : ({ q with deferrals } : Query).scope = q.scope := rfl
    unfold settle
    dsimp only
    rw [scope]
    split
    · next statement _ => exact ih { q with statement }
    · rfl

theorem leads_settle {step : Step} {ready : List Deferred} {q : Query}
    (held : ready ⊆ q.deferrals) :
    q.Leads subquery step (q.settle subquery ready).1 ∧
      (q.settle subquery ready).1.deferrals = q.deferrals := by
  induction ready generalizing q with
  | nil => exact ⟨.refl, rfl⟩
  | cons deferred rest ih =>
    obtain ⟨here, more⟩ := List.cons_subset.1 held
    unfold settle
    dsimp only
    split
    · next statement filled =>
      obtain ⟨scope, known, filled⟩ := Outcome.exists_of_bind filled
      obtain ⟨condition, compiled, filled⟩ := Outcome.exists_of_bind filled
      let next : Query := { q with statement }
      have later : rest ⊆ next.deferrals := more
      obtain ⟨leads, same⟩ := ih later
      exact ⟨.head (.fill here known compiled filled) leads, same⟩
    · exact ⟨.refl, rfl⟩

theorem leads_orUnchanged {step : Step} {q : Query} {outcome : Except Error Query}
    (h : ∀ after, outcome = .ok after → q.Moves subquery step after) :
    q.Leads subquery step (q.orUnchanged outcome).1 := by
  cases outcome with
  | error error => exact .refl
  | ok after => exact .single (h after rfl)

theorem leads_closeGroup (q : Query) :
    q.Leads subquery .closeGroup (q.closeGroup subquery).1 := by
  by_cases opened : q.statement.openGroups = 0
  · rw [closeGroup_of_closed opened]
  · have inner : q.inner ⊆ q.deferrals := fun _ member => (List.mem_filter.1 member).1
    have outer : q.outer.deferrals ⊆ q.deferrals := fun _ member => (List.mem_filter.1 member).1
    obtain ⟨leads, same⟩ := leads_settle inner
    have dropped : q.Leads subquery .closeGroup
        { (q.settle subquery q.inner).1 with deferrals := q.outer.deferrals } :=
      leads.tail (.drop (same ▸ outer))
    have settled : q.outer.settle subquery q.inner = _ := settle_with q.inner q.outer.deferrals q
    rw [closeGroup_eq opened, settled]
    cases (q.settle subquery q.inner).2 with
    | some error => exact dropped
    | none =>
      dsimp only
      unfold Statement.closeGroup
      split
      · next statement closes =>
        split at closes
        · cases closes
        · cases closes
          exact dropped.tail (.put .closeGroup)
      · exact dropped

theorem leads_filterExists (connective : Connective) (negated : Bool) (edge : Edge Refinement)
    (q : Query) : q.Leads subquery (.filterExists connective negated edge)
      (q.applyUsing subquery (.filterExists connective negated edge)).1 := by
  refine leads_orUnchanged fun after made => ?_
  by_cases closed : q.statement.openGroups = 0
  · rw [filterExists_eq_put subquery q connective negated edge closed] at made
    obtain ⟨fragment, gives, rfl⟩ := Outcome.exists_of_map made
    exact .put (Step.gives_of_fragment gives)
  · rw [filterExists_eq_defer connective negated edge closed] at made
    obtain ⟨link, checked, rfl⟩ := Outcome.exists_of_map made
    exact .defer (.filterExists connective negated checked)

/-- Every step comes down to moves. -/
theorem leads_applyUsing (step : Step) (q : Query) :
    q.Leads subquery step (q.applyUsing subquery step).1 := by
  have call {step : Step} (call : step.isCall) (closes : step ≠ .closeGroup)
      (waits : ∀ connective negated edge, step ≠ .filterExists connective negated edge) :
      q.Leads subquery step (q.applyUsing subquery step).1 := by
    rw [applyUsing_eq_put subquery q call closes
      fun connective negated edge same => absurd same (waits connective negated edge)]
    refine leads_orUnchanged fun after made => ?_
    obtain ⟨fragment, gives, rfl⟩ := Outcome.exists_of_map made
    exact .put (Step.gives_of_fragment gives)
  cases step with
  | attempt step =>
    exact Relation.ReflTransGen.mono (fun _ _ => Moves.attempt) _ _ (leads_applyUsing step q)
  | fail => exact .refl
  | closeGroup => exact leads_closeGroup q
  | filterExists connective negated edge => exact leads_filterExists connective negated edge q
  | _ => exact call rfl (by simp) (by simp)

theorem of_moves {P : Query → Prop} {step : Step}
    (keeps : ∀ {q after : Query}, P q → q.Moves subquery step after → P after) {q : Query}
    (begins : P q) : P (q.applyUsing subquery step).1 := by
  have leads : q.Leads subquery step _ := leads_applyUsing step q
  generalize (q.applyUsing subquery step).1 = after at leads
  induction leads with
  | refl => exact begins
  | tail _ moves ih => exact keeps ih moves

theorem eq_foldl_of_refineUsing {steps : Refinement} {q after : Query}
    (h : q.refineUsing subquery steps = .ok after) :
    after = steps.foldl (fun q step => (q.applyUsing subquery step).1) q := by
  induction steps generalizing q with
  | nil =>
    cases h
    rfl
  | cons step rest ih =>
    unfold refineUsing at h
    split at h
    · next next went =>
      rw [List.foldl_cons, went]
      exact ih h
    · cases h

theorem of_refineUsing {P : Query → Prop} (keeps : ∀ step q, P q → P (q.applyUsing subquery step).1)
    {steps : Refinement} {q after : Query} (begins : P q)
    (h : q.refineUsing subquery steps = .ok after) : P after := by
  rw [eq_foldl_of_refineUsing h]
  exact List.foldlRecOn steps _ begins fun q held step _ => keeps step q held

end Query

end RelationQuery
