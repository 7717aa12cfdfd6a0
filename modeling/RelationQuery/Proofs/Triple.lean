import RelationQuery.Load

/-! What a run guarantees: of the statements it has sent by its end, of what it comes to, and of
the error it fails with. -/
namespace RelationQuery.Load

variable {α β : Type}

/-- From a history with `pre`, a load that comes to something ends with `post`, and one that fails
ends with `fail`. -/
def Triple (pre : List String → Prop) (load : Load α) (post : α → List String → Prop)
    (fail : Error → List String → Prop) : Prop :=
  ∀ sent, pre sent →
    match load.exec sent with
    | (.ok a, after) => post a after
    | (.error error, after) => fail error after

variable {pre : List String → Prop} {post : α → List String → Prop}
  {fail : Error → List String → Prop} {load : Load α}

theorem Triple.of_exec (triple : Triple pre load post fail) {sent after : List String} {a : α}
    (h : pre sent) (run : load.exec sent = (.ok a, after)) : post a after := by
  have := triple sent h
  rwa [run] at this

theorem Triple.of_exec_error (triple : Triple pre load post fail) {sent after : List String}
    {error : Error} (h : pre sent) (run : load.exec sent = (.error error, after)) :
    fail error after := by
  have := triple sent h
  rwa [run] at this

theorem Triple.weaken {pre' : List String → Prop} {post' : α → List String → Prop}
    {fail' : Error → List String → Prop} (triple : Triple pre load post fail)
    (before : ∀ sent, pre' sent → pre sent) (after : ∀ a sent, post a sent → post' a sent)
    (failed : ∀ error sent, fail error sent → fail' error sent) :
    Triple pre' load post' fail' := by
  intro sent h
  have := triple sent (before sent h)
  rcases run : load.exec sent with ⟨error | a, later⟩
  · rw [run] at this
    exact failed error later this
  · rw [run] at this
    exact after a later this

theorem Triple.assume {fact : Prop} (h : fact → Triple (fun _ => True) load post fail) :
    Triple (fun _ => fact) load post fail :=
  fun sent held => h held sent True.intro

theorem Triple.fix (h : ∀ start, pre start → Triple (· = start) load post fail) :
    Triple pre load post fail :=
  fun sent held => h sent held sent rfl

theorem Triple.pure {a : α} (h : ∀ sent, pre sent → post a sent) :
    Triple pre (pure a) post fail := h

theorem Triple.throw {error : Error} (h : ∀ sent, pre sent → fail error sent) :
    Triple pre (throw error) post fail := h

theorem Triple.ofExcept {result : Except Error α}
    (ok : ∀ a, result = .ok a → ∀ sent, pre sent → post a sent)
    (failed : ∀ error, result = .error error → ∀ sent, pre sent → fail error sent) :
    Triple pre (ofExcept result) post fail := by
  intro sent h
  rw [exec_ofExcept]
  cases result with
  | ok a => exact ok a rfl sent h
  | error error => exact failed error rfl sent h

theorem Triple.ask {driver : Driver} {sql : String} {post : List Row → List String → Prop}
    (ok : ∀ sent rows, pre sent → driver sent sql = .ok rows → post rows (sent ++ [sql]))
    (failed : ∀ sent cause, pre sent → driver sent sql = .error cause →
      fail (.refused cause sql) (sent ++ [sql])) :
    Triple pre (ask driver sql) post fail := by
  intro sent h
  rw [exec_ask]
  cases answer : driver sent sql with
  | ok rows => exact ok sent rows h answer
  | error cause => exact failed sent cause h answer

theorem Triple.bind {next : α → Load β} {last : β → List String → Prop}
    (first : Triple pre load post fail) (then' : ∀ a, Triple (post a) (next a) last fail) :
    Triple pre (load >>= next) last fail := by
  intro sent h
  rw [exec_bind]
  have := first sent h
  rcases run : load.exec sent with ⟨error | a, middle⟩
  · rw [run] at this
    exact this
  · rw [run] at this
    exact then' a middle this

theorem Triple.map {f : α → β} {last : β → List String → Prop}
    (triple : Triple pre load (fun a => last (f a)) fail) : Triple pre (f <$> load) last fail := by
  rw [map_eq_pure_bind]
  exact triple.bind fun a => Triple.pure fun _ h => h

/-- One step for each item carries through all of them. -/
theorem Triple.foldlM {items : List α} {step : β → α → Load β} {start : β}
    (invariant : List α → β → List String → Prop) (h : ∀ sent, pre sent → invariant [] start sent)
    (one : ∀ done item rest state, items = done ++ item :: rest →
      Triple (invariant done state) (step state item) (invariant (done ++ [item])) fail) :
    Triple pre (items.foldlM step start) (invariant items) fail := by
  suffices all : ∀ done rest state, items = done ++ rest →
      Triple (invariant done state) (rest.foldlM step state) (invariant items) fail from
    (all [] items start rfl).weaken h (fun _ _ h => h) fun _ _ h => h
  intro done rest state split
  induction rest generalizing done state with
  | nil =>
    rw [List.append_nil] at split
    subst split
    exact Triple.pure fun _ h => h
  | cons item rest ih =>
    rw [List.foldlM_cons]
    refine Triple.bind (one done item rest state split) fun next => ?_
    exact ih (done ++ [item]) next (by simp [split])

def Yields (load : Load α) (P : α → Prop) : Prop :=
  Triple (fun _ => True) load (fun a _ => P a) fun _ _ => True

theorem Yields.imp {P Q : α → Prop} (yields : Yields load P) (h : ∀ a, P a → Q a) :
    Yields load Q :=
  yields.weaken (fun _ _ => True.intro) (fun a _ => h a) fun _ _ _ => True.intro

theorem Yields.bind {P : α → Prop} {next : α → Load β} {Q : β → Prop} (yields : Yields load P)
    (h : ∀ a, P a → Yields (next a) Q) : Yields (load >>= next) Q := by
  refine Triple.bind yields fun a sent holds => ?_
  exact h a holds sent True.intro

theorem Yields.pure {P : α → Prop} {a : α} (h : P a) : Yields (pure a) P :=
  Triple.pure fun _ _ => h

theorem Yields.throw {P : α → Prop} (error : Error) : Yields (throw error) P :=
  Triple.throw fun _ _ => True.intro

theorem Yields.trivial (load : Load α) : Yields load fun _ => True := by
  intro sent _
  rcases load.exec sent with ⟨_ | _, _⟩ <;> trivial

theorem Yields.foldlM {P : β → Prop} {items : List α} {step : β → α → Load β} {start : β}
    (begins : P start) (keeps : ∀ item ∈ items, ∀ state, P state → (step state item).Yields P) :
    (items.foldlM step start).Yields P := by
  induction items generalizing start with
  | nil => exact Yields.pure begins
  | cons item rest ih =>
    rw [List.foldlM_cons]
    refine (keeps item List.mem_cons_self start begins).bind fun next holds => ?_
    exact ih holds fun later member => keeps later (List.mem_cons_of_mem _ member)

theorem bind_congr_of_yields {P : α → Prop} {next other : α → Load β} (yields : Yields load P)
    (same : ∀ a, P a → next a = other a) : load >>= next = load >>= other := by
  apply ext
  intro sent
  rw [exec_bind, exec_bind]
  rcases run : exec load sent with ⟨_ | a, after⟩
  · rfl
  · dsimp only
    rw [same a (yields.of_exec True.intro run)]

variable {only : String → Prop}

def SendsOnly (only : String → Prop) (load : Load α) : Prop :=
  Triple (fun sent => ∀ sql ∈ sent, only sql) load (fun _ sent => ∀ sql ∈ sent, only sql)
    fun _ sent => ∀ sql ∈ sent, only sql

theorem SendsOnly.pure (a : α) : (Pure.pure a : Load α).SendsOnly only := Triple.pure fun _ h => h

theorem SendsOnly.throw (error : Error) : (MonadExcept.throw error : Load α).SendsOnly only :=
  Triple.throw fun _ h => h

theorem SendsOnly.bind {next : α → Load β} (first : load.SendsOnly only)
    (then' : ∀ a, (next a).SendsOnly only) : (load >>= next).SendsOnly only :=
  Triple.bind first then'

theorem SendsOnly.ofExcept_bind {result : Except Error α} {next : α → Load β}
    (h : ∀ a, result = .ok a → (next a).SendsOnly only) :
    (ofExcept result >>= next).SendsOnly only := by
  cases result with
  | ok a => exact h a rfl
  | error error => exact SendsOnly.throw error

theorem SendsOnly.ask {driver : Driver} {sql : String} (h : only sql) :
    (ask driver sql).SendsOnly only := by
  have more (sent : List String) (before : ∀ text ∈ sent, only text) :
      ∀ text ∈ sent ++ [sql], only text :=
    List.forall_mem_append.2 ⟨before, List.forall_mem_singleton.2 h⟩
  exact Triple.ask (fun sent _ before _ => more sent before) fun sent _ before _ => more sent before

theorem SendsOnly.foldlM {items : List α} {step : β → α → Load β} {start : β}
    (h : ∀ item ∈ items, ∀ state, (step state item).SendsOnly only) :
    (items.foldlM step start).SendsOnly only := by
  induction items generalizing start with
  | nil => exact SendsOnly.pure start
  | cons item rest ih =>
    rw [List.foldlM_cons]
    refine (h item List.mem_cons_self start).bind fun next => ?_
    exact ih fun later member => h later (List.mem_cons_of_mem _ member)

end RelationQuery.Load
