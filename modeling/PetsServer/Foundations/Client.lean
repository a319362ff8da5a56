import PetsServer.Foundations.Program
import PetsServer.Foundations.Run

/-!
# Clients and protocols

A client makes requests of an object, one after another, and ends with a result. A request can
depend on the answers to the requests before it. An object is a program for each request, all with
the same state; `Client.run` runs a client on it.

A protocol says in which order the events of a program may come: it is at a stage, and `step` takes
it to the next one, if the event is allowed there. `KeepsTo` says that a program that appends its
events to a log makes only such as the protocol allows. The rules below go through a program bind by
bind; `keepsTo_run` is the one for a client, whatever it asks.
-/

namespace Foundations

universe u

/-- A client that makes requests of type `ι`, is answered with values of type `ο` and ends with a
result of type `ρ`. -/
inductive Client (ι ο ρ : Type u) : Type u
  | done (result : ρ)
  | ask (request : ι) (next : ο → Client ι ο ρ)

variable {ε σ α β ι ο ρ : Type u}

/-- The client makes its requests of the object `serve`. -/
def Client.run (serve : ι → EStateM ε σ ο) : Client ι ο ρ → EStateM ε σ ρ
  | done result => pure result
  | ask request next => do
    let answer ← serve request
    (next answer).run serve

/-! ## Protocols -/

variable {γ ν : Type*} {step : γ → ν → Option γ} {log : σ → List ν}

/-- Started in a state and at a stage of `pre`, the program appends only events to its log that the
protocol allows, whether it fails or not; and when it returns, its value, the state and the stage
are of `post`. -/
def KeepsTo (step : γ → ν → Option γ) (log : σ → List ν) (pre : σ → γ → Prop)
    (x : EStateM ε σ α) (post : α → σ → γ → Prop) : Prop :=
  ∀ s g r t, pre s g → Yields x s r t → ∃ events h, log t = log s ++ events ∧
    run step g events = some h ∧ ∀ a, r = .ok a → post a t h

section KeepsTo

variable {pre : σ → γ → Prop} {post : α → σ → γ → Prop} {post' : β → σ → γ → Prop}

/-- A program that has no event. -/
theorem keepsTo_of_quiet {x : EStateM ε σ α}
    (h : ∀ s g r t, pre s g → Yields x s r t → log t = log s ∧ ∀ a, r = .ok a → post a t g) :
    KeepsTo step log pre x post := by
  intro s g r t hpre hx
  obtain ⟨hlog, hpost⟩ := h s g r t hpre hx
  exact ⟨[], g, by rw [hlog, List.append_nil], rfl, hpost⟩

theorem keepsTo_pure {a : α} (h : ∀ s g, pre s g → post a s g) :
    KeepsTo step log pre (pure a : EStateM ε σ α) post := by
  refine keepsTo_of_quiet fun s g r t hpre hx => ?_
  obtain ⟨rfl, rfl⟩ := hx.unique (yields_pure a s)
  refine ⟨rfl, fun b hb => ?_⟩
  cases hb
  exact h t g hpre

theorem keepsTo_get {post : σ → σ → γ → Prop} (h : ∀ s g, pre s g → post s s g) :
    KeepsTo step log pre (get : EStateM ε σ σ) post := by
  refine keepsTo_of_quiet fun s g r t hpre hx => ?_
  obtain ⟨rfl, rfl⟩ := hx.unique (yields_get s)
  refine ⟨rfl, fun b hb => ?_⟩
  cases hb
  exact h t g hpre

theorem keepsTo_modify {f : σ → σ} {post : PUnit → σ → γ → Prop} (hlog : ∀ s, log (f s) = log s)
    (h : ∀ s g, pre s g → post ⟨⟩ (f s) g) :
    KeepsTo step log pre (modify f : EStateM ε σ PUnit) post := by
  refine keepsTo_of_quiet fun s g r t hpre hx => ?_
  obtain ⟨rfl, rfl⟩ := hx.unique (yields_modify f s)
  exact ⟨hlog s, fun _ _ => h s g hpre⟩

/-- A program that has one event. -/
theorem keepsTo_of_event {x : EStateM ε σ α}
    (h : ∀ s g, pre s g → ∃ a event t h, Yields x s (.ok a) t ∧ log t = log s ++ [event] ∧
      step g event = some h ∧ post a t h) :
    KeepsTo step log pre x post := by
  intro s g r t hpre hx
  obtain ⟨a, event, t', h', hx', hlog, hstep, hpost⟩ := h s g hpre
  obtain ⟨rfl, rfl⟩ := hx.unique hx'
  refine ⟨[event], h', hlog, by rw [run_singleton, hstep], fun b hb => ?_⟩
  cases hb
  exact hpost

/-- **The rule of sequencing.** -/
theorem keepsTo_bind {x : EStateM ε σ α} {f : α → EStateM ε σ β}
    (hx : KeepsTo step log pre x post) (hf : ∀ a, KeepsTo step log (post a) (f a) post') :
    KeepsTo step log pre (x >>= f) post' := by
  intro s g r u hpre hrun
  rcases yields_bind.mp hrun with ⟨a, t, ha, hb⟩ | ⟨e, he, rfl⟩
  · obtain ⟨events, h, hlog, hstages, hpost⟩ := hx s g _ t hpre ha
    obtain ⟨events', h', hlog', hstages', hpost'⟩ := hf a t h r u (hpost a rfl) hb
    exact ⟨events ++ events', h', by rw [hlog', hlog, List.append_assoc],
      run_trans hstages hstages', hpost'⟩
  · obtain ⟨events, h, hlog, hstages, -⟩ := hx s g _ u hpre he
    exact ⟨events, h, hlog, hstages, fun a ha => by cases ha⟩

/-- **The rule of consequence.** -/
theorem KeepsTo.mono {pre' : σ → γ → Prop} {post₁ : α → σ → γ → Prop} {x : EStateM ε σ α}
    (h : KeepsTo step log pre x post) (hpre : ∀ s g, pre' s g → pre s g)
    (hpost : ∀ a s g, post a s g → post₁ a s g) : KeepsTo step log pre' x post₁ := by
  intro s g r t hs hx
  obtain ⟨events, h', hlog, hstages, ht⟩ := h s g r t (hpre s g hs) hx
  exact ⟨events, h', hlog, hstages, fun a ha => hpost a t h' (ht a ha)⟩

/-- What follows from where the program starts can be used. -/
theorem keepsTo_of_fact {p : Prop} {x : EStateM ε σ α} (hp : ∀ s g, pre s g → p)
    (h : p → KeepsTo step log pre x post) : KeepsTo step log pre x post :=
  fun s g r t hs => h (hp s g hs) s g r t hs

/-- **The rule for clients**: what every request keeps, a client keeps, whatever it asks. -/
theorem keepsTo_run {serve : ι → EStateM ε σ ο}
    (h : ∀ i, KeepsTo step log pre (serve i) fun _ => pre) (c : Client ι ο ρ) :
    KeepsTo step log pre (c.run serve) fun _ => pre := by
  induction c with
  | done result => exact keepsTo_pure fun _ _ hpre => hpre
  | ask request next ih => exact keepsTo_bind (h request) ih

end KeepsTo

end Foundations
