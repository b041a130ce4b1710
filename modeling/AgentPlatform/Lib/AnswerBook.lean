import Mathlib.Data.List.Nodup

/-!
# Requests under a key

A service that answers a request once. A request comes under a key, with a fingerprint of what it
asks. The first one of a key that is answered is written into a book, and from then on the book
answers: the same fingerprint hears the same answer, any other one a conflict, and neither is
written down.
-/

universe u v w

/-- An answer, under the key and the fingerprint of its request. -/
structure KeptAnswer (κ : Type u) (φ : Type v) (α : Type w) where
  key : κ
  fingerprint : φ
  answer : α
deriving DecidableEq, Repr

/-- What a request hears. -/
inductive KeyedReply (α : Type w) where
  | answered (answer : α)
  | conflict
  /-- Something else keeps the request from being answered. -/
  | refused
deriving DecidableEq, Repr

/-- The answers of a service, the oldest first. -/
abbrev AnswerBook (κ : Type u) (φ : Type v) (α : Type w) := List (KeptAnswer κ φ α)

namespace AnswerBook

variable {κ : Type u} {φ : Type v} {α : Type w} [DecidableEq κ] {book book' : AnswerBook κ φ α}
  {key : κ} {fingerprint fingerprint' : φ} {answer answer' : α} {reply : KeyedReply α}

/-- The answer under a key. -/
def under (book : AnswerBook κ φ α) (key : κ) : Option (KeptAnswer κ φ α) :=
  book.find? (·.key = key)

/-- One request. -/
inductive Step (book : AnswerBook κ φ α) (key : κ) (fingerprint : φ) :
    KeyedReply α → AnswerBook κ φ α → Prop
  | kept {kept : KeptAnswer κ φ α} (known : book.under key = some kept)
      (same : kept.fingerprint = fingerprint) :
      Step book key fingerprint (.answered kept.answer) book
  | conflict {kept : KeptAnswer κ φ α} (known : book.under key = some kept)
      (differs : kept.fingerprint ≠ fingerprint) : Step book key fingerprint .conflict book
  | fresh (unknown : book.under key = none) (answer : α) :
      Step book key fingerprint (.answered answer) (book ++ [⟨key, fingerprint, answer⟩])
  | refused (unknown : book.under key = none) : Step book key fingerprint .refused book

/-- Requests one after the other, and the book they leave. -/
inductive Run : List (κ × φ × KeyedReply α) → AnswerBook κ φ α → Prop
  | start : Run [] []
  | step {log : List (κ × φ × KeyedReply α)} {book book' : AnswerBook κ φ α} {key : κ}
      {fingerprint : φ} {reply : KeyedReply α} (run : Run log book)
      (step : Step book key fingerprint reply book') :
      Run (log ++ [(key, fingerprint, reply)]) book'

/-! ## The book -/

@[simp] theorem under_nil : under ([] : AnswerBook κ φ α) key = none := rfl

theorem under_mem {kept : KeptAnswer κ φ α} (h : book.under key = some kept) :
    kept ∈ book ∧ kept.key = key :=
  ⟨List.mem_of_find?_eq_some h, by simpa using List.find?_some h⟩

theorem under_eq_none : book.under key = none ↔ ∀ kept ∈ book, kept.key ≠ key := by
  simp [under]

theorem under_append_of_some {kept : KeptAnswer κ φ α} (h : book.under key = some kept)
    (more : AnswerBook κ φ α) : (book ++ more).under key = some kept := by
  have hfound : book.find? (·.key = key) = some kept := h
  rw [under, List.find?_append, hfound]
  rfl

theorem Step.prefix (step : Step book key fingerprint reply book') : book <+: book' := by
  cases step with
  | kept | conflict | refused => exact List.prefix_refl book
  | fresh unknown answer => exact List.prefix_append book _

/-- What is under a key stays there. -/
theorem Step.under (step : Step book key fingerprint reply book') {key' : κ}
    {kept : KeptAnswer κ φ α} (h : book.under key' = some kept) : book'.under key' = some kept := by
  obtain ⟨more, rfl⟩ := step.prefix
  exact under_append_of_some h more

/-- An answer is under its key from then on. -/
theorem Step.answered (step : Step book key fingerprint (.answered answer) book') :
    book'.under key = some ⟨key, fingerprint, answer⟩ := by
  cases step with
  | @kept kept known same =>
    have hkey := (under_mem known).2
    rw [known, ← hkey, ← same]
  | fresh unknown =>
    rw [AnswerBook.under, List.find?_append]
    show ((book.under key).or _) = _
    simp [unknown]

/-- A key that is known answers from the book, which stays as it is. -/
theorem Step.known {kept : KeptAnswer κ φ α} (step : Step book key fingerprint reply book')
    (known : book.under key = some kept) : book' = book ∧
      (fingerprint = kept.fingerprint → reply = .answered kept.answer) ∧
      (fingerprint ≠ kept.fingerprint → reply = .conflict) := by
  cases step with
  | kept known' same =>
    cases known.symm.trans known'
    exact ⟨rfl, fun _ => rfl, fun differs => absurd same.symm differs⟩
  | conflict known' differs =>
    cases known.symm.trans known'
    exact ⟨rfl, fun same => absurd same.symm differs, fun _ => rfl⟩
  | fresh unknown | refused unknown => cases unknown.symm.trans known

/-! ## Every run -/

variable {log : List (κ × φ × KeyedReply α)}

/-- No key is answered by two entries of the book. -/
theorem Run.distinct (run : Run log book) : (book.map (·.key)).Nodup := by
  induction run with
  | start => exact List.nodup_nil
  | step run step ih =>
    cases step with
    | kept | conflict | refused => exact ih
    | fresh unknown answer =>
      rw [List.map_append, List.nodup_append]
      refine ⟨ih, List.nodup_singleton _, ?_⟩
      rintro x hx y hy rfl
      obtain ⟨kept, hkept, rfl⟩ := List.mem_map.mp hx
      exact under_eq_none.mp unknown kept hkept (List.mem_singleton.mp hy)

/-- What was answered is in the book. -/
theorem Run.kept (run : Run log book) (answered : (key, fingerprint, .answered answer) ∈ log) :
    book.under key = some ⟨key, fingerprint, answer⟩ := by
  induction run with
  | start => cases answered
  | step run step ih =>
    rcases List.mem_append.mp answered with hold | hnew
    · exact step.under (ih hold)
    · cases List.mem_singleton.mp hnew
      exact step.answered

/-- What is in the book was answered. -/
theorem Run.origin (run : Run log book) {kept : KeptAnswer κ φ α} (h : kept ∈ book) :
    (kept.key, kept.fingerprint, .answered kept.answer) ∈ log := by
  induction run with
  | start => cases h
  | step run step ih =>
    cases step with
    | kept | conflict | refused => exact List.mem_append_left _ (ih h)
    | fresh unknown answer =>
      rcases List.mem_append.mp h with hold | hnew
      · exact List.mem_append_left _ (ih hold)
      · cases List.mem_singleton.mp hnew
        exact List.mem_append_right _ (List.mem_singleton.mpr rfl)

/-- A key that nothing was answered under is not in the book. -/
theorem Run.unknown (run : Run log book)
    (unanswered : ∀ fingerprint answer, (key, fingerprint, .answered answer) ∉ log) :
    book.under key = none :=
  under_eq_none.mpr fun kept hkept hkey =>
    unanswered kept.fingerprint kept.answer (hkey ▸ run.origin hkept)

/-- The requests of one key that are answered are one request, and hear one answer. -/
theorem Run.same (run : Run log book) (answered : (key, fingerprint, .answered answer) ∈ log)
    (answered' : (key, fingerprint', .answered answer') ∈ log) :
    fingerprint' = fingerprint ∧ answer' = answer := by
  cases (run.kept answered).symm.trans (run.kept answered')
  exact ⟨rfl, rfl⟩

/-- A conflict is with a request of the same key that was answered before. -/
theorem Run.blamed (run : Run log book) (conflict : (key, fingerprint, .conflict) ∈ log) :
    ∃ fingerprint' answer, fingerprint' ≠ fingerprint ∧
      (key, fingerprint', .answered answer) ∈ log := by
  induction run with
  | start => cases conflict
  | step run step ih =>
    rcases List.mem_append.mp conflict with hold | hnew
    · obtain ⟨fingerprint', answer, hdiffers, hanswered⟩ := ih hold
      exact ⟨fingerprint', answer, hdiffers, List.mem_append_left _ hanswered⟩
    · cases List.mem_singleton.mp hnew
      cases step with
      | conflict known differs =>
        obtain ⟨hkept, hkey⟩ := under_mem known
        exact ⟨_, _, differs, List.mem_append_left _ (hkey ▸ run.origin hkept)⟩

/-- A request of a key that was answered is answered from the book. -/
theorem Run.repeated (run : Run log book) (answered : (key, fingerprint, .answered answer) ∈ log)
    (step : Step book key fingerprint' reply book') : book' = book ∧
      (fingerprint' = fingerprint → reply = .answered answer) ∧
      (fingerprint' ≠ fingerprint → reply = .conflict) :=
  step.known (run.kept answered)

end AnswerBook
