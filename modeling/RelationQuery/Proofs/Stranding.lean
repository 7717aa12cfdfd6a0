import RelationQuery.Proofs.Completion
import RelationQuery.Proofs.Prompt

/-! Groups that cannot be closed. Main statement: such a group stays open, but the condition at
fault and those behind it are lost with the places that are kept for them, and whatever is called,
the query has no text any more. -/
namespace RelationQuery.Query

variable {subquery : SubqueryCompiler} {q after : Query} {slot : Nat}

/-- A place is kept that no condition waits for, and none will. -/
structure Stranded (slot : Nat) (q : Query) : Prop where
  kept : slot ∈ q.statement.conditions.slots
  alone : slot ∉ q.deferrals.map Deferred.slot
  taken : slot < q.statement.slots

theorem slots_put (fragment : Fragment) :
    (q.put fragment).statement.conditions.slots = q.statement.conditions.slots ∧
      (q.put fragment).statement.slots = q.statement.slots := by
  cases fragment with
  | entry entry =>
    cases entry with
    | item connective condition => exact ⟨Clause.slots_add_ready .., rfl⟩
    | opening connective negated => exact ⟨Clause.slots_openGroup .., rfl⟩
    | closing => exact ⟨Clause.slots_closeGroup _, rfl⟩
  | _ => exact ⟨rfl, rfl⟩

theorem mem_slots_of_fill {s filled : Statement} {other : Nat} {condition : Condition}
    (kept : slot ∈ s.conditions.slots) (apart : slot ≠ other)
    (fills : s.fill other condition = .ok filled) : slot ∈ filled.conditions.slots := by
  obtain ⟨conditions, found, rfl⟩ := Statement.exists_of_fill fills
  exact (List.mem_cons.1 ((Clause.perm_slots_of_fill? found).subset kept)).resolve_left apart

namespace Stranded

theorem moves {step : Step} (h : q.Stranded slot) (moves : q.Moves subquery step after) :
    after.Stranded slot := by
  obtain ⟨kept, alone, taken⟩ := h
  cases moves with
  | @put fragment _ =>
    obtain ⟨slots, next⟩ := q.slots_put fragment
    exact ⟨slots ▸ kept, by rwa [deferrals_put], next ▸ taken⟩
  | @defer existence _ =>
    refine ⟨?_, ?_, Nat.lt_succ_of_lt taken⟩
    · change slot ∈ Clause.slots (Clause.add _ _ _)
      rw [Clause.slots_add_reserved]
      exact List.mem_append_left _ kept
    · simp only [defer, List.map_append, List.map_singleton, List.mem_append, List.mem_singleton,
        not_or]
      exact ⟨alone, taken.ne⟩
  | @fill deferred _ _ _ held _ _ fills =>
    have apart : slot ≠ deferred.slot := fun same => alone (same ▸ List.mem_map_of_mem held)
    refine ⟨mem_slots_of_fill kept apart fills, alone, ?_⟩
    obtain ⟨_, _, rfl⟩ := Statement.exists_of_fill fills
    exact taken
  | drop fewer => exact ⟨kept, fun member => alone (List.map_subset _ fewer member), taken⟩

theorem foldl (h : q.Stranded slot) (later : List Step) :
    (later.foldl (fun q step => (q.applyUsing subquery step).1) q).Stranded slot :=
  List.foldlRecOn later _ h fun _ held _ _ => of_moves Stranded.moves held

theorem fillDeferred {scope : Scope} {deferrals : List Deferred} {s filled : Statement}
    (kept : slot ∈ s.conditions.slots) (alone : slot ∉ deferrals.map Deferred.slot)
    (ok : Query.fillDeferred subquery scope deferrals s = .ok filled) :
    slot ∈ filled.conditions.slots ∧ filled.openGroups = s.openGroups := by
  induction deferrals generalizing s with
  | nil =>
    cases ok
    exact ⟨kept, rfl⟩
  | cons deferred rest ih =>
    rw [List.map_cons, List.mem_cons, not_or] at alone
    unfold Query.fillDeferred at ok
    rw [List.foldlM_cons] at ok
    obtain ⟨next, step, ok⟩ := Outcome.exists_of_bind ok
    obtain ⟨condition, _, fills⟩ := Outcome.exists_of_bind step
    obtain ⟨member, groups⟩ := ih (mem_slots_of_fill kept alone.1 fills) alone.2 ok
    obtain ⟨_, _, rfl⟩ := Statement.exists_of_fill fills
    exact ⟨member, groups⟩

theorem filter_of_assemble {assembly : Assembly} (h : q.Stranded slot)
    (ok : q.assemble subquery = .ok assembly) :
    assembly.statement.filter = .error (.compile .unfilledSlot) := by
  have closed := closed_of_assemble ok
  obtain ⟨scope, parts, filled, _, _, fills, rfl⟩ := exists_of_assemble ok
  obtain ⟨kept, groups⟩ := fillDeferred h.kept h.alone fills
  cases settled : (filled.conditions ++ q.declared parts).settled? with
  | none => simp [Statement.filter, groups, closed, settled]
  | some clause =>
    obtain ⟨entry, member, reserved⟩ := List.mem_filterMap.1 kept
    have complete := Clause.isSome_settled?_iff.1 (Option.isSome_of_eq_some settled)
    obtain ⟨connective, rfl⟩ : ∃ connective, entry = .item connective (.reserved slot) := by
      rcases entry with ⟨connective, condition | other⟩ | _ | _ <;> cases reserved
      exact ⟨connective, rfl⟩
    exact absurd rfl (complete _ (List.mem_append_left _ member) connective slot)

theorem sql_ne_ok (h : q.Stranded slot) (text : String) : q.sql ≠ .ok text := by
  intro made
  obtain ⟨assembly, compiled, made⟩ := Outcome.exists_of_bind made
  obtain ⟨_, clause, filter, _⟩ := Statement.exists_of_sql made
  rw [h.filter_of_assemble compiled] at filter
  cases filter

end Stranded

theorem exists_of_settle {ready : List Deferred} {error : Error}
    (h : q.settle subquery ready = (after, some error)) : ∃ filled failing lost,
      ready = filled ++ failing :: lost ∧ q.settle subquery filled = (after, none) ∧
      after.scope >>= failing.existence.compile subquery >>=
        after.statement.fill failing.slot = .error error := by
  induction ready generalizing q with
  | nil => cases h
  | cons deferred rest ih =>
    unfold settle at h
    dsimp only at h
    split at h
    · next statement filled =>
      obtain ⟨front, failing, lost, rfl, settled, fault⟩ := ih h
      refine ⟨deferred :: front, failing, lost, rfl, ?_, fault⟩
      unfold settle
      dsimp only
      rw [filled]
      exact settled
    · next fault =>
      cases h
      exact ⟨[], deferred, rest, rfl, rfl, by rw [bind_assoc]; exact fault⟩

/-- A condition that waited for a group and was not put in its place waits no longer, but its place
is kept. -/
theorem stranded_of_settle (formed : q.WellFormed) {filled others : List Deferred}
    (inner : q.inner = filled ++ others) {conditions : Clause Place}
    (settled : q.outer.settle subquery filled =
      ({ q.outer with statement := { q.statement with conditions } }, none))
    {deferred : Deferred} (member : deferred ∈ others) :
    Stranded deferred.slot
      { q.outer with statement := { q.statement with conditions } } := by
  obtain ⟨apart, -, reserved⟩ := formed.places
  have waits := (q.perm_inner_outer.map Deferred.slot).nodup_iff.2 apart
  rw [inner, List.append_assoc, List.map_append, List.map_append] at waits
  obtain ⟨_, later, before⟩ := List.nodup_append'.1 waits
  obtain ⟨_, _, behind⟩ := List.nodup_append'.1 later
  have among : deferred.slot ∈ others.map Deferred.slot := List.mem_map_of_mem member
  have held : deferred ∈ q.deferrals := by
    refine (List.mem_filter.1 (?_ : deferred ∈ q.inner)).1
    rw [inner]
    exact List.mem_append_right _ member
  have place := reserved (List.mem_map_of_mem held)
  have taken : q.statement.conditions.slots.Perm (filled.map Deferred.slot ++ conditions.slots) :=
    perm_slots_of_settle settled
  refine ⟨?_, fun other => behind among other, formed.fresh _ place⟩
  refine (List.mem_append.1 (taken.subset place)).resolve_left fun front => ?_
  exact before front (List.mem_append_left _ among)

theorem closeGroup_of_idle (opened : q.statement.openGroups ≠ 0)
    (outside : ∀ deferred ∈ q.deferrals, deferred.depth < q.statement.openGroups) :
    q.closeGroup subquery = (q.put (.entry .closing), none) := by
  have inner : q.inner = [] :=
    List.filter_eq_nil_iff.2 fun deferred member => by simpa using outside deferred member
  have same : q.outer.deferrals = q.deferrals :=
    List.filter_eq_self.2 fun deferred member => decide_eq_true (outside deferred member)
  have outer : q.outer = q := congrArg (fun deferrals => ({ q with deferrals } : Query)) same
  have settled : q.outer.settle subquery q.inner =
      ({ q.outer with statement := { q.statement with conditions := q.statement.conditions } },
        none) := by
    rw [inner]
    rfl
  rw [closeGroup_of_settle opened settled, outer]

/-- A group that cannot be closed is still open, and but for the clause and what waits the query is
as it was. It fails at a condition that waited for it and cannot be compiled. Those before it are in
their places, those that wait for groups further out go on waiting; but it and those behind it wait
no longer, though their places are kept. The next call closes the group without them, and whatever
is called then, the query is never complete again. -/
theorem stranded_of_closeGroup {error : Error} (formed : q.WellFormed)
    (opened : q.statement.openGroups ≠ 0)
    (failed : q.closeGroup subquery = (after, some error)) :
    ∃ filled failing lost conditions,
      q.inner = filled ++ failing :: lost ∧
      after = { q.outer with statement := { q.statement with conditions } } ∧
      q.outer.settle subquery filled = (after, none) ∧
      q.scope >>= failing.existence.compile subquery = .error error ∧
      after.pending + (filled.length + 1 + lost.length) = q.pending ∧
      after.closeGroup subquery = (after.put (.entry .closing), none) ∧
      ∀ deferred ∈ failing :: lost, ∀ later : List Step,
        let query := later.foldl (fun q step => (q.applyUsing subquery step).1) after
        query.Stranded deferred.slot ∧ (∀ text, query.sql ≠ .ok text) ∧
        ∀ compiler assembly, query.assemble compiler = .ok assembly →
          assembly.statement.filter = .error (.compile .unfilledSlot) := by
  rcases settled : q.outer.settle subquery q.inner with ⟨next, _ | other⟩
  · obtain ⟨_, conditions, rfl⟩ := of_settle settled
    rw [closeGroup_of_settle opened settled] at failed
    cases failed
  rw [closeGroup_eq opened, settled] at failed
  cases failed
  obtain ⟨filled, failing, lost, inner, settled, fault⟩ := exists_of_settle settled
  obtain ⟨_, conditions, rfl⟩ := of_settle settled
  refine ⟨filled, failing, lost, conditions, inner, rfl, settled, ?_, ?_, ?_,
    fun deferred member later => ?_⟩
  · -- The place is there, so that it is the condition that is at fault.
    have place := (stranded_of_settle formed inner settled List.mem_cons_self).kept
    have fault : (q.scope >>= failing.existence.compile subquery >>= fun condition =>
        Statement.fill failing.slot condition { q.statement with conditions }) = .error error :=
      fault
    cases compiled : q.scope >>= failing.existence.compile subquery with
    | error other =>
      rw [compiled] at fault
      cases fault
      rfl
    | ok condition =>
      obtain ⟨_, found, _⟩ := Clause.exists_fill? place condition
      simp [compiled, Statement.fill, found] at fault
  · have lengths := q.perm_inner_outer.length_eq
    rw [List.length_append, inner, List.length_append, List.length_cons] at lengths
    change q.declarations.length + q.outer.deferrals.length + _ = _
    unfold pending
    omega
  · exact closeGroup_of_idle opened fun deferred member =>
      of_decide_eq_true (List.mem_filter.1 member).2
  · have held : (later.foldl (fun (q : Query) step => (q.applyUsing subquery step).1)
        { q.outer with statement := { q.statement with conditions } }).Stranded deferred.slot :=
      (stranded_of_settle formed inner settled member).foldl later
    exact ⟨held, held.sql_ne_ok, fun _ _ => held.filter_of_assemble⟩

def brokenGroup : Query := built {} [
  .fromTable "users",
  .openGroup .or true,
  .filterExists .and false { target := "orders", foreign := ["user_id"], own := ["id"] },
  .filterExists .or true {
    target := "payments", foreign := ["user_id"], own := ["id"], refinement := some [.limit 1] },
  .filterExists .and false { target := "logs", foreign := ["user_id"], own := ["id"] }]

theorem brokenGroup_stranded : ∃ after, ∃ failing : Deferred, ∃ slot,
    brokenGroup.statement.openGroups = 1 ∧
    brokenGroup.apply .closeGroup = (after, some (.compile (.shapingClause .limit "payments"))) ∧
    brokenGroup.scope >>= failing.existence.compile compileSubquery =
      .error (.compile (.shapingClause .limit "payments")) ∧
    after.pending = 0 ∧ after.Stranded slot ∧ ∀ text, after.sql ≠ .ok text := by
  have failed : (brokenGroup.closeGroup compileSubquery).2 =
      some (.compile (.shapingClause .limit "payments")) := by decide +kernel
  have left : (brokenGroup.closeGroup compileSubquery).1.pending = 0 := by decide +kernel
  have formed : brokenGroup.WellFormed := (WellFormed.empty {}).foldl compileSubquery _
  obtain ⟨_, failing, _, _, _, _, _, fault, _, _, stays⟩ :=
    stranded_of_closeGroup formed (by decide +kernel) (Prod.ext rfl failed)
  obtain ⟨stranded, untold, _⟩ := stays failing List.mem_cons_self []
  exact ⟨_, failing, _, by decide +kernel, Prod.ext rfl failed, fault, left, stranded, untold⟩

def earlyCalls : List Step := [
  .openGroup .and false,
  .filterExists .and false { target := "orders", foreign := ["user_id"], own := ["id"] }]

/-- The first call that would close the group fails for want of a table. Once there is one the next
call goes through, but the condition is gone; without the first call it would be there. -/
theorem retried_sql_ne :
    (built {} earlyCalls).statement.openGroups = 1 ∧
    ((built {} earlyCalls).apply .closeGroup).2 = some (.compile .noTable) ∧
    (built {} earlyCalls).pending = 1 ∧
    ((built {} earlyCalls).apply .closeGroup).1.pending = 0 ∧
    ((built {} (earlyCalls ++ [.closeGroup, .fromTable "users"])).apply .closeGroup).2 = none ∧
    (built {} (earlyCalls ++ [.closeGroup, .fromTable "users", .closeGroup])).sql =
      .error (.compile .unfilledSlot) ∧
    (built {} (earlyCalls ++ [.fromTable "users", .closeGroup])).sql =
      .ok ("SELECT \"users\".* FROM \"users\" WHERE (EXISTS (SELECT 1 FROM \"orders\" AS " ++
        "\"orders_s1\" WHERE \"orders_s1\".\"user_id\" = \"users\".\"id\"))") := by
  refine ⟨?_, ?_, ?_, ?_, ?_, ?_, ?_⟩ <;> decide +kernel

end RelationQuery.Query
