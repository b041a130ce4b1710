import Mathlib.Init

/-!
# Programs that ask

A program that asks its environment one request after another and goes on with the answers. What
the program may ask next is a discipline: a state that the answers move, and the requests that each
state allows. `Asking.Obeys` says that a program keeps to a discipline whatever it is answered; its
rules follow the program's syntax.
-/

universe u v w x

/-- A program over the requests `ρ`, where `answer r` answers `r`. -/
inductive Asking (ρ : Type u) (answer : ρ → Type v) (α : Type w)
  | done (a : α)
  | ask (request : ρ) (next : answer request → Asking ρ answer α)

namespace Asking

variable {ρ : Type u} {answer : ρ → Type v} {α β : Type w}

/-- Go on with what a program returns. -/
def bind : Asking ρ answer α → (α → Asking ρ answer β) → Asking ρ answer β
  | .done a, f => f a
  | .ask request next, f => .ask request fun a => (next a).bind f

instance : Monad (Asking ρ answer) where
  pure := .done
  bind := .bind

@[simp] theorem pure_eq (a : α) : (pure a : Asking ρ answer α) = .done a := rfl

@[simp] theorem done_bind (a : α) (f : α → Asking ρ answer β) :
    (Asking.done a >>= f) = f a := rfl

@[simp] theorem ask_bind (request : ρ) (next : answer request → Asking ρ answer α)
    (f : α → Asking ρ answer β) :
    (Asking.ask request next >>= f) = .ask request fun a => next a >>= f := rfl

/-! ## Disciplines -/

/-- The requests that each state allows, and the state that an answer leads to. -/
structure Discipline (ρ : Type u) (answer : ρ → Type v) (σ : Type x) where
  allows : σ → ρ → Prop
  after : σ → (request : ρ) → answer request → σ

variable {σ : Type x} {d : Discipline ρ answer σ}

/-- From state `s` on, the program asks what is allowed, and ends as `post` says. -/
def Obeys (d : Discipline ρ answer σ) (post : σ → α → Prop) : σ → Asking ρ answer α → Prop
  | s, .done a => post s a
  | s, .ask request next => d.allows s request ∧ ∀ a, Obeys d post (d.after s request a) (next a)

theorem Obeys.done {post : σ → α → Prop} {s : σ} {a : α} (h : post s a) :
    Obeys d post s (.done a) := h

theorem Obeys.ask {post : σ → α → Prop} {s : σ} {request : ρ}
    {next : answer request → Asking ρ answer α} (allowed : d.allows s request)
    (rest : ∀ a, Obeys d post (d.after s request a) (next a)) :
    Obeys d post s (.ask request next) := ⟨allowed, rest⟩

/-- What a program obeys, followed by what its results obey. -/
theorem Obeys.bind {middle : σ → α → Prop} {post : σ → β → Prop} {s : σ}
    {program : Asking ρ answer α} {f : α → Asking ρ answer β} (first : Obeys d middle s program)
    (rest : ∀ s a, middle s a → Obeys d post s (f a)) : Obeys d post s (program >>= f) := by
  induction program generalizing s with
  | done a => exact rest s a first
  | ask request next ih => exact ⟨first.1, fun a => ih a (first.2 a)⟩

/-- A state that stands for another one allows at least as much. -/
theorem Obeys.weaken {post : σ → α → Prop} {stands : σ → σ → Prop}
    (allows : ∀ s t r, stands s t → d.allows s r → d.allows t r)
    (after : ∀ s t r a, stands s t → stands (d.after s r a) (d.after t r a))
    (ends : ∀ s t a, stands s t → post s a → post t a) {s t : σ} {program : Asking ρ answer α}
    (h : Obeys d post s program) (related : stands s t) : Obeys d post t program := by
  induction program generalizing s t with
  | done a => exact ends s t a related h
  | ask request next ih =>
    exact ⟨allows s t request related h.1, fun a =>
      ih a (h.2 a) (after s t request a related)⟩

/-! ## Logs -/

variable {ν : Type x} {notes : (request : ρ) → answer request → ν → Prop}

/-- What a program has heard up to some point of a run, where each answer leaves a note. -/
def Logs (notes : (request : ρ) → answer request → ν → Prop) : Asking ρ answer α → List ν → Prop
  | _, [] => True
  | .done _, _ :: _ => False
  | .ask request next, note :: log => ∃ a, notes request a note ∧ Logs notes (next a) log

@[simp] theorem logs_nil (program : Asking ρ answer α) : Logs notes program [] := by
  cases program <;> trivial

@[simp] theorem logs_done {a : α} {log : List ν} :
    Logs notes (.done a : Asking ρ answer α) log ↔ log = [] := by
  cases log <;> simp [Logs]

@[simp] theorem logs_ask_cons {request : ρ} {next : answer request → Asking ρ answer α} {note : ν}
    {log : List ν} : Logs notes (.ask request next) (note :: log) ↔
      ∃ a, notes request a note ∧ Logs notes (next a) log := Iff.rfl

/-- What a program has heard is nothing yet, or what its first answer left and what followed. -/
theorem logs_ask {request : ρ} {next : answer request → Asking ρ answer α} {log : List ν} :
    Logs notes (.ask request next) log ↔
      log = [] ∨ ∃ a note rest, notes request a note ∧ Logs notes (next a) rest ∧
        log = note :: rest := by
  cases log with
  | nil => simp
  | cons note log => simp

/-! ## Histories -/

variable (ρ answer) in
/-- A request with its answer. -/
abbrev Note := (request : ρ) × answer request

/-- The program has asked and been answered so far as the log says. -/
def Hears (program : Asking ρ answer α) (log : List (Note ρ answer)) : Prop :=
  Logs (fun request a note => note = ⟨request, a⟩) program log

/-- What was heard first was heard. -/
theorem Hears.before {program : Asking ρ answer α} {log rest : List (Note ρ answer)}
    (h : program.Hears (log ++ rest)) : program.Hears log := by
  induction log generalizing program with
  | nil => exact logs_nil program
  | cons note log ih =>
    cases program with
    | done a => exact h.elim
    | ask request next =>
      obtain ⟨a, hnote, hrest⟩ := h
      exact ⟨a, hnote, ih hrest⟩

/-- The discipline whose state is what was heard so far. -/
def Discipline.history (allows : List (Note ρ answer) → ρ → Prop) :
    Discipline ρ answer (List (Note ρ answer)) where
  allows := allows
  after heard request a := heard ++ [⟨request, a⟩]

/-- What a program asks is allowed by what it has heard. -/
theorem Obeys.asked {allows : List (Note ρ answer) → ρ → Prop}
    {post : List (Note ρ answer) → α → Prop} {heard log : List (Note ρ answer)} {request : ρ}
    {a : answer request} {program : Asking ρ answer α}
    (h : program.Obeys (.history allows) post heard)
    (hears : program.Hears (log ++ [⟨request, a⟩])) : allows (heard ++ log) request := by
  induction log generalizing heard program with
  | nil =>
    cases program with
    | done b => exact hears.elim
    | ask first next =>
      obtain ⟨b, hnote, -⟩ := hears
      cases hnote
      rw [List.append_nil]
      exact h.1
  | cons note log ih =>
    cases program with
    | done b => exact hears.elim
    | ask first next =>
      obtain ⟨b, hnote, hrest⟩ := hears
      cases hnote
      have := ih (h.2 b) hrest
      rwa [Discipline.history, List.append_assoc] at this

/-! ## Results -/

/-- The program ends with the result after it was answered as the log says. -/
def Returns : Asking ρ answer α → List (Note ρ answer) → α → Prop
  | .done a, log, b => log = [] ∧ a = b
  | .ask request next, log, b => ∃ a rest, log = ⟨request, a⟩ :: rest ∧ Returns (next a) rest b

@[simp] theorem returns_done {a b : α} {log : List (Note ρ answer)} :
    Returns (.done a : Asking ρ answer α) log b ↔ log = [] ∧ a = b := Iff.rfl

@[simp] theorem returns_ask {request : ρ} {next : answer request → Asking ρ answer α}
    {log : List (Note ρ answer)} {b : α} : Returns (.ask request next) log b ↔
      ∃ a rest, log = ⟨request, a⟩ :: rest ∧ Returns (next a) rest b := Iff.rfl

/-- A sequence ends with what its second program makes of the result of the first. -/
theorem Returns.bind_inv {program : Asking ρ answer α} {f : α → Asking ρ answer β}
    {log : List (Note ρ answer)} {b : β} (h : Returns (program >>= f) log b) :
    ∃ first rest a, log = first ++ rest ∧ program.Returns first a ∧ (f a).Returns rest b := by
  induction program generalizing log with
  | done a => exact ⟨[], log, a, rfl, ⟨rfl, rfl⟩, h⟩
  | ask request next ih =>
    obtain ⟨a, behind, rfl, hbehind⟩ := h
    obtain ⟨first, rest, c, rfl, hfirst, hrest⟩ := ih a hbehind
    exact ⟨⟨request, a⟩ :: first, rest, c, rfl, ⟨a, first, rfl, hfirst⟩, hrest⟩

end Asking
