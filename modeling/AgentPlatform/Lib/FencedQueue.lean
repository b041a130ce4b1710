import AgentPlatform.Lib.Transition

/-!
# A queue with one fenced worker

Items arrive at the end of a queue and are completed from its front. The front item is free, held
under a token, or blocked; holding it is exclusive, and a new claim replaces the token of the last
one, so that only the worker with the current token can complete the item. An item that completes
leaves the queue for good, together with the token and the result it completed with.
-/

/-- What holds the front of a queue. -/
inductive Focus (τ : Type*) where
  | free
  | held (token : τ)
  | blocked

/-- A queue of items `ε`, completed under tokens `τ` with results `ω`. -/
structure FencedQueue (ε τ ω : Type*) where
  done : List (ε × τ × ω)
  waiting : List ε
  focus : Focus τ
  idle : waiting = [] → focus = .free

/-- What happens to a queue. -/
inductive QueueAction (ε τ ω : Type*) where
  | arrive (item : ε)
  | claim (token : τ)
  | keep
  | release
  | block
  | retry
  | complete (item : ε) (token : τ) (result : ω)

namespace FencedQueue

variable {ε τ ω : Type*}

/-- The queue that nothing has arrived at. -/
def empty : FencedQueue ε τ ω := { done := [], waiting := [], focus := .free, idle := fun _ => rfl }

/-- Every item that ever arrived, in the order of arrival. -/
def items (q : FencedQueue ε τ ω) : List ε := q.done.map (·.1) ++ q.waiting

/-- The item that is being worked on, and the token it is held under. -/
def current (q : FencedQueue ε τ ω) : Option (ε × τ) :=
  match q.waiting, q.focus with
  | item :: _, .held token => some (item, token)
  | _, _ => none

/-- The steps of a queue. -/
inductive Step : FencedQueue ε τ ω → QueueAction ε τ ω → FencedQueue ε τ ω → Prop
  | arrive {done waiting focus idle} (item : ε) :
      Step ⟨done, waiting, focus, idle⟩ (.arrive item)
        ⟨done, waiting ++ [item], focus, fun h => absurd h (by simp)⟩
  | claim {done item rest focus idle} (token : τ) (unblocked : focus ≠ .blocked) :
      Step ⟨done, item :: rest, focus, idle⟩ (.claim token)
        ⟨done, item :: rest, .held token, nofun⟩
  | keep (q : FencedQueue ε τ ω) : Step q .keep q
  | release {done item rest token idle} :
      Step ⟨done, item :: rest, .held token, idle⟩ .release ⟨done, item :: rest, .free, nofun⟩
  | block {done item rest token idle} :
      Step ⟨done, item :: rest, .held token, idle⟩ .block ⟨done, item :: rest, .blocked, nofun⟩
  | retry {done item rest idle} :
      Step ⟨done, item :: rest, .blocked, idle⟩ .retry ⟨done, item :: rest, .free, nofun⟩
  | complete {done item rest token idle} (result : ω) :
      Step ⟨done, item :: rest, .held token, idle⟩ (.complete item token result)
        ⟨done ++ [(item, token, result)], rest, .free, fun _ => rfl⟩

/-- What a list of actions completes. -/
def completed : List (QueueAction ε τ ω) → List (ε × τ × ω)
  | [] => []
  | .complete item token result :: actions => (item, token, result) :: completed actions
  | _ :: actions => completed actions

/-- A path records exactly the completions among its actions, in their order. -/
theorem done_of_path {q q' : FencedQueue ε τ ω} {actions : List (QueueAction ε τ ω)}
    (path : StepPath Step q actions q') :
    q'.done = q.done ++ completed actions := by
  induction path with
  | nil q => simp [completed]
  | cons head _ ih =>
    rw [ih]
    cases head <;> simp [completed]

end FencedQueue
