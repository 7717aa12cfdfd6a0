import RelationQuery.Proofs.Origin
import RelationQuery.Proofs.Projection
import RelationQuery.Proofs.Triple

/-! The statements of a run. Main statement: whatever is sent, and however the run ends, it is of a
query that the run compiles. -/
namespace RelationQuery.Query

open Load (SendsOnly)

variable {driver : Driver} {only : String → Prop} {q : Query}

/-- The queries that a run compiles: the one it is of, and one for each relation it fetches, which
stands beside it. -/
inductive Reaches (q : Query) : Option Relation → Query → Prop
  | base : Reaches q none q
  | fetch {parent? : Option Relation} {parent child : Query} {relation : Relation}
    (above : Reaches q parent? parent) (declared : relation ∈ parent.relations)
    (related : relation.related parent.config parent.depth = .ok child) :
    Reaches q (some relation) child

/-- The texts that a run of `q` sends: the statements of the queries it compiles, and the one that
counts the rows. -/
def Sent (q : Query) (sql : String) : Prop :=
  (∃ parent? inner s, q.Reaches parent? inner ∧ inner.Sends s ∧ s.sql = .ok sql) ∨
    ∃ assembly, q.compile = .ok assembly ∧
      assembly.statement.countSql (q.config.hiddenColumn "total") = .ok sql

theorem sendsOnly_loadUsing {fetch? : Option (Fetch (List Row))} {assembly : Assembly}
    (own : ∀ sql, assembly.statement.sql = .ok sql → only sql)
    (fetches : ∀ relation ∈ assembly.relations, ∀ keys,
      (relation.fetchRelated fetch? q.config q.depth keys).SendsOnly only) :
    (q.loadUsing driver fetch? assembly).SendsOnly only := by
  refine SendsOnly.ofExcept_bind fun sql written => ?_
  refine (SendsOnly.ask (own sql written)).bind fun rows => ?_
  refine SendsOnly.foldlM fun relation member rows => ?_
  unfold Relation.attach
  dsimp only
  split
  · exact SendsOnly.pure _
  · exact (fetches relation member _).bind fun fetched => SendsOnly.pure _

theorem sendsOnly_fetchRelated (levels : Nat) {start : Query} {parent? : Option Relation}
    (reaches : start.Reaches parent? q) {relation : Relation} (declared : relation ∈ q.relations)
    (keys : List (List Value)) :
    (relation.fetchRelated (fetchWithin driver levels) q.config q.depth keys).SendsOnly
      start.Sent := by
  induction levels generalizing q parent? relation keys with
  | zero => exact SendsOnly.throw _
  | succ levels ih =>
    refine SendsOnly.ofExcept_bind fun child related => ?_
    have below : start.Reaches (some relation) child := .fetch reaches declared related
    refine SendsOnly.ofExcept_bind fun assembly compiled => ?_
    refine sendsOnly_loadUsing (fun sql written => ?_) fun inner member keys => ?_
    · exact .inl ⟨_, child, _, below, .fetch compiled _, written⟩
    · exact ih below (relations_of_compile compiled ▸ member) keys

theorem sent_of_get (q : Query) (driver : Driver) : ∀ sql ∈ (q.get driver).2, q.Sent sql := by
  have load : (q.run driver).SendsOnly q.Sent := by
    refine SendsOnly.ofExcept_bind fun assembly compiled => ?_
    have rest (total : Option Nat) : SendsOnly q.Sent (do
        let rows ← q.loadUsing driver (fetchWithin driver (q.config.maxDepth - q.depth)) assembly
        return (rows, total)) := by
      refine SendsOnly.bind ?_ fun rows => SendsOnly.pure _
      refine sendsOnly_loadUsing (fun sql written => ?_) fun relation member keys => ?_
      · exact .inl ⟨none, q, _, .base, .base compiled, written⟩
      · exact sendsOnly_fetchRelated _ .base (relations_of_compile compiled ▸ member) keys
    dsimp only
    split
    · refine SendsOnly.bind ?_ rest
      refine Load.Triple.map (SendsOnly.ofExcept_bind fun sql counted => ?_)
      exact (SendsOnly.ask (.inr ⟨assembly, compiled, counted⟩)).bind fun rows => SendsOnly.pure _
    · exact rest none
  have sent := load [] nofun
  unfold get
  rcases result : (q.run driver).exec [] with ⟨error | value, texts⟩
  · rw [result] at sent
    exact sent
  · rw [result] at sent
    exact sent

end RelationQuery.Query
