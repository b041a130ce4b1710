import Mathlib.Data.List.Nodup
import Mathlib.Data.List.Range

/-!
# Lists numbered without a gap

The entries of a log carry consecutive numbers. Appending keeps that, dropping a front keeps it, and
the entries between two numbers are read off as such.
-/

namespace AgentPlatform

variable {α : Type}

/-- The entries carry the numbers from `first` on, one after the other. -/
def Numbered (number : α → Nat) (first : Nat) (entries : List α) : Prop :=
  entries.map number = List.range' first entries.length

/-- The entries after one number and up to another. -/
def between (number : α → Nat) (after through : Nat) (entries : List α) : List α :=
  entries.filter fun e => after < number e && number e ≤ through

theorem mem_of_mem_between {number : α → Nat} {after through : Nat} {entries : List α} {e : α}
    (h : e ∈ between number after through entries) : e ∈ entries :=
  List.mem_of_mem_filter h

namespace Numbered

variable {number : α → Nat} {first : Nat} {entries : List α}

theorem nil (number : α → Nat) (first : Nat) : Numbered number first [] := rfl

theorem append {more : List α} (h : Numbered number first entries)
    (h' : Numbered number (first + entries.length) more) :
    Numbered number first (entries ++ more) := by
  unfold Numbered at h h' ⊢
  rw [List.map_append, h, h', List.length_append, List.range'_append_1]

theorem concat {entry : α} (h : Numbered number first entries)
    (next : number entry = first + entries.length) : Numbered number first (entries ++ [entry]) :=
  h.append (by simp [Numbered, next])

/-- The numbers of the entries. -/
theorem mem (h : Numbered number first entries) {entry : α} (he : entry ∈ entries) :
    first ≤ number entry ∧ number entry < first + entries.length := by
  have : number entry ∈ List.range' first entries.length := h ▸ List.mem_map_of_mem he
  exact List.mem_range'_1.mp this

/-- A number names one entry. -/
theorem eq_of_number (h : Numbered number first entries) {x y : α} (hx : x ∈ entries)
    (hy : y ∈ entries) (heq : number x = number y) : x = y := by
  have hdistinct : (entries.map number).Nodup := by
    rw [h]
    exact List.nodup_range'
  exact List.inj_on_of_nodup_map hdistinct hx hy heq

theorem filter_range'_none {p : Nat → Bool} {first length : Nat}
    (none : ∀ n, first ≤ n → n < first + length → p n = false) :
    (List.range' first length).filter p = [] := by
  refine List.filter_eq_nil_iff.mpr fun n hn => ?_
  obtain ⟨hle, hlt⟩ := List.mem_range'_1.mp hn
  simp [none n hle hlt]

theorem filter_range'_all {p : Nat → Bool} {first length : Nat}
    (all : ∀ n, first ≤ n → n < first + length → p n = true) :
    (List.range' first length).filter p = List.range' first length := by
  refine List.filter_eq_self.mpr fun n hn => ?_
  obtain ⟨hle, hlt⟩ := List.mem_range'_1.mp hn
  exact all n hle hlt

/-- Lists of entries with the same numbers are the same. -/
theorem ext (h : Numbered number first entries) {xs ys : List α} (hxs : ∀ x ∈ xs, x ∈ entries)
    (hys : ∀ y ∈ ys, y ∈ entries) (same : xs.map number = ys.map number) : xs = ys := by
  have hlength : xs.length = ys.length := by simpa using congrArg List.length same
  refine List.ext_getElem hlength fun n hx hy => ?_
  refine h.eq_of_number (hxs _ (List.getElem_mem hx)) (hys _ (List.getElem_mem hy)) ?_
  have hnumber := List.getElem_of_eq same (by simpa using hx)
  simpa using hnumber

/-- The numbers of the entries between two numbers. -/
theorem map_between (h : Numbered number first entries) {after through : Nat}
    (retained : first ≤ after + 1) (reaches : after ≤ through)
    (inside : through < first + entries.length) :
    (between number after through entries).map number =
      List.range' (after + 1) (through - after) := by
  have hfilter : (between number after through entries).map number =
      (entries.map number).filter fun n => after < n && n ≤ through := by
    rw [between, List.filter_map]
    rfl
  have hsplit : List.range' first entries.length =
      List.range' first (after + 1 - first) ++ (List.range' (after + 1) (through - after) ++
        List.range' (through + 1) (first + entries.length - (through + 1))) := by
    have hfront : after + 1 = first + (after + 1 - first) := by omega
    have hback : through + 1 = after + 1 + (through - after) := by omega
    have hmiddle : List.range' (after + 1) (through - after) ++
        List.range' (through + 1) (first + entries.length - (through + 1)) =
        List.range' (after + 1) (first + entries.length - (after + 1)) := by
      rw [show List.range' (through + 1) _ = List.range' (after + 1 + (through - after))
        (first + entries.length - (through + 1)) by rw [← hback], List.range'_append_1]
      congr 1
      omega
    rw [hmiddle, show List.range' (after + 1) _ = List.range' (first + (after + 1 - first))
      (first + entries.length - (after + 1)) by rw [← hfront], List.range'_append_1]
    congr 1
    omega
  rw [hfilter, h, hsplit, List.filter_append, List.filter_append, filter_range'_none,
    filter_range'_all, filter_range'_none, List.nil_append, List.append_nil]
  · intro n hle hlt
    simp only [Bool.and_eq_false_iff, decide_eq_false_iff_not]
    omega
  · intro n hle hlt
    simp only [Bool.and_eq_true, decide_eq_true_eq]
    omega
  · intro n hle hlt
    simp only [Bool.and_eq_false_iff, decide_eq_false_iff_not]
    omega

/-- The entries from a later number on are the last of those from an earlier one on. -/
theorem between_eq_drop (h : Numbered number first entries) {after middle through : Nat}
    (retained : first ≤ after + 1) (le : after ≤ middle) (reaches : middle ≤ through)
    (inside : through < first + entries.length) :
    between number middle through entries =
      (between number after through entries).drop (middle - after) := by
  refine h.ext (fun _ => mem_of_mem_between)
    (fun _ hx => mem_of_mem_between (List.mem_of_mem_drop hx)) ?_
  rw [List.map_drop, h.map_between (by omega) reaches inside,
    h.map_between retained (Nat.le_trans le reaches) inside, List.drop_range']
  congr 1 <;> omega

/-- The first entries of those between two numbers. -/
theorem take_between (h : Numbered number first entries) {after through count : Nat}
    (retained : first ≤ after + 1) (inside : through < first + entries.length)
    (within : count ≤ through - after) (reaches : after ≤ through) :
    (between number after through entries).take count =
      between number after (after + count) entries := by
  refine h.ext (fun _ hx => mem_of_mem_between (List.mem_of_mem_take hx))
    (fun _ => mem_of_mem_between) ?_
  rw [List.map_take, h.map_between retained reaches inside,
    h.map_between retained (Nat.le_add_right _ _) (by omega), Nat.add_sub_cancel_left,
    List.take_range'_of_length_ge within]

/-- What is left when a front is dropped. -/
theorem dropped (h : Numbered number first entries) {last : α} (hlast : last ∈ entries) :
    (entries.filter fun e => number last < number e).map number =
      List.range' (number last + 1) (first + entries.length - (number last + 1)) := by
  obtain ⟨hle, hlt⟩ := h.mem hlast
  have hthrough : (between number (number last) (first + entries.length - 1) entries).map number =
      List.range' (number last + 1) (first + entries.length - 1 - number last) :=
    h.map_between (by omega) (by omega) (by omega)
  have hsame : (entries.filter fun e => number last < number e) =
      between number (number last) (first + entries.length - 1) entries := by
    refine List.filter_congr fun e he => ?_
    have := (h.mem he).2
    have hin : number e ≤ first + entries.length - 1 := by omega
    simp [hin]
  rw [hsame, hthrough]
  congr 1
  omega

end Numbered

end AgentPlatform
