import AgentPlatform.Harness.BoundedOutput
import AgentPlatform.Harness.Llm
import AgentPlatform.Harness.ToolDiscipline

/-!
# The messages a compaction retains

A compaction retains the end of the user messages, the oldest of them perhaps shortened to its own
end. What it retains is within 64,000 tokens, save when it takes the empty texts at the end of a
message for which not even the four tokens of a message itself are left.
-/

namespace AgentPlatform.Harness.Compaction

/-! ## The end of a message -/

/-- An end of a message's parts, of which the first may be the end of a text. -/
inductive IsPartsEnd (content : List ContentPart) : List ContentPart → Prop
  | whole {kept : List ContentPart} (suffix : kept <:+ content) : IsPartsEnd content kept
  | cut (before : List ContentPart) (front : List Char) {back : List Char}
      {metadata : Option Metadata} {rest : List ContentPart}
      (parts : content = before ++ .text (String.ofList (front ++ back)) metadata :: rest) :
      IsPartsEnd content (.text (String.ofList back) metadata :: rest)

/-- An end of several user messages, of which the first may be shortened to its end. -/
inductive IsMessagesEnd (users : List Message) : List Message → Prop
  | whole {kept : List Message} (suffix : kept <:+ users) : IsMessagesEnd users kept
  | cut (before : List Message) {base : MessageBase} {content kept : List ContentPart}
      {rest : List Message} (messages : users = before ++ .user base content :: rest)
      (parts : IsPartsEnd content kept) : IsMessagesEnd users (.user base kept :: rest)

theorem suffix_concat {α : Type} {kept whole : List α} (h : kept <:+ whole) (last : α) :
    kept ++ [last] <:+ whole ++ [last] := by
  obtain ⟨before, rfl⟩ := h
  exact ⟨before, (List.append_assoc _ _ _).symm⟩

theorem IsPartsEnd.concat {content kept : List ContentPart} (h : IsPartsEnd content kept)
    (part : ContentPart) : IsPartsEnd (content ++ [part]) (kept ++ [part]) := by
  cases h with
  | whole suffix => exact .whole (suffix_concat suffix part)
  | cut before front parts => exact .cut before front (by rw [parts, List.append_assoc]; rfl)

theorem IsMessagesEnd.concat {users kept : List Message} (h : IsMessagesEnd users kept)
    (message : Message) : IsMessagesEnd (users ++ [message]) (kept ++ [message]) := by
  cases h with
  | whole suffix => exact .whole (suffix_concat suffix message)
  | cut before messages parts => exact .cut before (by rw [messages, List.append_assoc]; rfl) parts

theorem utf8ByteSize_ofList (text : List Char) :
    (String.ofList text).utf8ByteSize = byteLength text := by
  induction text with
  | nil => rfl
  | cons c text ih =>
    rw [String.ofList_cons, String.utf8ByteSize_append, String.utf8ByteSize_singleton, ih,
      byteLength_eq, byteLength_eq, Ends.weight_cons]

theorem utf8ByteSize_eq (text : String) : text.utf8ByteSize = byteLength text.toList := by
  rw [← utf8ByteSize_ofList, String.ofList_toList]

/-- What is selected of a message is an end of it. -/
theorem truncateParts_end (remaining : Nat) (parts : List ContentPart) :
    IsPartsEnd parts.reverse (truncateParts remaining parts).reverse := by
  induction parts generalizing remaining with
  | nil => exact .whole List.suffix_rfl
  | cons part parts ih =>
    rw [List.reverse_cons]
    unfold truncateParts
    split
    next =>
      rw [List.reverse_cons]
      exact (ih _).concat part
    next =>
      cases part with
      | image url detail metadata => exact .whole List.nil_suffix
      | text text metadata =>
        dsimp only
        split
        next =>
          rw [utf8ByteSize_eq, ceilSuffix_eq]
          obtain ⟨front, hfront⟩ := Ends.lastWithin_suffix Char.utf8Size
            (min (remaining * 4) (2 ^ 64 - 1)) text.toList
          refine .cut parts.reverse front ?_
          rw [hfront, String.ofList_toList]
        next => exact .whole List.nil_suffix

/-- What is retained is an end of the user messages. -/
theorem retainLatest_end (lib : Foreign) (remaining : Nat) (messages : List Message) :
    IsMessagesEnd (messages.filter Message.isUser).reverse
      (retainLatest lib remaining messages).reverse := by
  induction messages generalizing remaining with
  | nil => exact .whole List.suffix_rfl
  | cons message messages ih =>
    cases message with
    | user base content =>
      have huser : Message.isUser (.user base content) = true := rfl
      rw [List.filter_cons_of_pos huser, List.reverse_cons, retainLatest]
      split
      next =>
        rw [List.reverse_cons]
        exact (ih _).concat _
      next =>
        split
        next =>
          rw [truncateUserMessage]
          have hparts := truncateParts_end (remaining - 4) content.reverse
          rw [List.reverse_reverse] at hparts
          split
          next => exact .whole List.nil_suffix
          next => exact .cut _ rfl hparts
        next => exact .whole List.nil_suffix
    | assistant => exact ih remaining
    | toolResult => exact ih remaining
    | custom => exact ih remaining
    | system => exact ih remaining

/-! ## Tokens -/

theorem estimateBytes_le {bytes tokens : Nat} (h : bytes ≤ tokens * 4) :
    estimateBytes bytes ≤ tokens := by
  rw [estimateBytes, saturatingAdd]
  omega

theorem estimateBytes_eq_zero {bytes : Nat} : estimateBytes bytes = 0 ↔ bytes = 0 := by
  rw [estimateBytes, saturatingAdd]
  omega

/-- Only an empty text costs nothing. -/
theorem estimateContentTokens_eq_zero {part : ContentPart} :
    estimateContentTokens part = 0 ↔ ∃ metadata, part = .text "" metadata := by
  cases part with
  | text text metadata =>
    rw [estimateContentTokens, estimateBytes_eq_zero, String.utf8ByteSize_eq_zero_iff]
    constructor
    · rintro rfl
      exact ⟨metadata, rfl⟩
    · rintro ⟨metadata, heq⟩
      cases heq
      rfl
  | image url detail metadata =>
    constructor
    · intro hzero
      rw [estimateContentTokens] at hzero
      split at hzero <;> omega
    · rintro ⟨metadata, heq⟩
      cases heq

def partsTokens (parts : List ContentPart) : Nat := (parts.map estimateContentTokens).sum

theorem partsTokens_cons (part : ContentPart) (parts : List ContentPart) :
    partsTokens (part :: parts) = estimateContentTokens part + partsTokens parts := by
  rw [partsTokens, List.map_cons, List.sum_cons]
  rfl

theorem partsTokens_reverse (parts : List ContentPart) :
    partsTokens parts.reverse = partsTokens parts := by
  rw [partsTokens, List.map_reverse, List.sum_reverse]
  rfl

theorem truncateParts_tokens (remaining : Nat) (parts : List ContentPart) :
    partsTokens (truncateParts remaining parts) ≤ remaining := by
  induction parts generalizing remaining with
  | nil => exact Nat.zero_le _
  | cons part parts ih =>
    unfold truncateParts
    split
    next hfits =>
      have hrest := ih (remaining - estimateContentTokens part)
      rw [partsTokens_cons]
      omega
    next =>
      cases part with
      | image url detail metadata => exact Nat.zero_le _
      | text text metadata =>
        dsimp only
        split
        next =>
          have hkept := Ends.weight_lastWithin_le Char.utf8Size (min (remaining * 4) (2 ^ 64 - 1))
            text.toList
          rw [utf8ByteSize_eq, ceilSuffix_eq, partsTokens_cons, estimateContentTokens,
            utf8ByteSize_ofList, byteLength_eq]
          exact estimateBytes_le (Nat.le_trans hkept (Nat.min_le_left _ _))
        next => exact Nat.zero_le _

/-- The last part of a message is an empty text. -/
def EndsInEmptyText (content : List ContentPart) : Prop :=
  ∃ before metadata, content = before ++ [.text "" metadata]

/-- With no tokens left, something is selected only if the message ends in an empty text. -/
theorem truncateParts_zero (content : List ContentPart) :
    truncateParts 0 content.reverse ≠ [] ↔ EndsInEmptyText content := by
  constructor
  · intro hsome
    rcases List.eq_nil_or_concat content with rfl | ⟨before, part, rfl⟩
    · exact absurd rfl hsome
    · rw [List.concat_eq_append, List.reverse_append, List.reverse_singleton, List.singleton_append]
        at hsome
      unfold truncateParts at hsome
      split at hsome
      next hfits =>
        obtain ⟨metadata, rfl⟩ := estimateContentTokens_eq_zero.mp (Nat.le_zero.mp hfits)
        exact ⟨before, metadata, List.concat_eq_append⟩
      next =>
        cases part with
        | image url detail metadata => exact absurd rfl hsome
        | text text metadata => exact absurd (if_neg fun h => absurd h.1 (Nat.lt_irrefl 0)) hsome
  · rintro ⟨before, metadata, rfl⟩
    have hfree := estimateContentTokens_eq_zero.mpr ⟨metadata, rfl⟩
    rw [List.reverse_append, List.reverse_singleton, List.singleton_append]
    unfold truncateParts
    rw [if_pos (Nat.le_of_eq hfree)]
    exact List.cons_ne_nil _ _

variable (lib : Foreign) (base : MessageBase) {content : List ContentPart} {remaining : Nat}

theorem userTokens_eq (content : List ContentPart) :
    estimateMessageTokens lib (.user base content) = saturatingAdd 4 (partsTokens content) := rfl

theorem four_le_userTokens (content : List ContentPart) :
    4 ≤ estimateMessageTokens lib (.user base content) := by
  rw [userTokens_eq, saturatingAdd]
  omega

theorem estimateMessages_cons (message : Message) (messages : List Message) :
    estimateMessages lib (message :: messages) =
      estimateMessageTokens lib message + estimateMessages lib messages := by
  rw [estimateMessages, List.map_cons, List.sum_cons]
  rfl

theorem estimateMessages_reverse (messages : List Message) :
    estimateMessages lib messages.reverse = estimateMessages lib messages := by
  rw [estimateMessages, List.map_reverse, List.sum_reverse]
  rfl

/-- What is kept of a message is within the budget, save when the message ends in an empty text and
the budget does not pay for a message. -/
theorem truncateUserMessage_tokens (hsome : 0 < remaining) :
    estimateMessages lib (truncateUserMessage base content remaining).toList ≤ remaining ↔
      ¬ (EndsInEmptyText content ∧ remaining < 4) := by
  have htokens := truncateParts_tokens (remaining - 4) content.reverse
  rw [truncateUserMessage]
  by_cases hkept : truncateParts (remaining - 4) content.reverse = []
  · have hempty : ¬ (EndsInEmptyText content ∧ remaining < 4) := by
      rintro ⟨hends, hfew⟩
      rw [Nat.sub_eq_zero_of_le (by omega)] at hkept
      exact truncateParts_zero content |>.mpr hends hkept
    rw [hkept]
    exact iff_of_true (Nat.zero_le _) hempty
  · have hselected : (truncateParts (remaining - 4) content.reverse).reverse.isEmpty = false := by
      rw [List.isEmpty_reverse, List.isEmpty_eq_false_iff]
      exact hkept
    rw [if_neg (by rw [hselected]; exact Bool.false_ne_true), Option.toList_some,
      estimateMessages_cons, userTokens_eq, partsTokens_reverse, saturatingAdd]
    show min (4 + partsTokens (truncateParts (remaining - 4) content.reverse)) (2 ^ 64 - 1) + 0 ≤
      remaining ↔ _
    by_cases hfew : remaining < 4
    · rw [Nat.sub_eq_zero_of_le (by omega)] at hkept
      have hends := truncateParts_zero content |>.mp hkept
      refine iff_of_false (by omega) fun h => h ⟨hends, hfew⟩
    · exact iff_of_true (by omega) fun h => hfew h.2

/-- Fewer tokens are left than a message costs before its content, and the next message to retain
ends in an empty text. -/
def OverheadUnpaid (budget : Nat) (users : List Message) : Prop :=
  ∃ older base content latest, users = older ++ .user base content :: latest ∧
    EndsInEmptyText content ∧ estimateMessages lib latest < budget ∧
      budget < estimateMessages lib latest + 4

/-- The condition, at the latest of the messages. -/
theorem overheadUnpaid_concat (budget : Nat) (users : List Message) :
    OverheadUnpaid lib budget (users ++ [.user base content]) ↔
      (EndsInEmptyText content ∧ 0 < budget ∧ budget < 4) ∨
        (estimateMessageTokens lib (.user base content) ≤ budget ∧
          OverheadUnpaid lib (budget - estimateMessageTokens lib (.user base content)) users) := by
  have hcost := four_le_userTokens lib base content
  constructor
  · rintro ⟨older, base', content', latest, heq, hends, hlow, hhigh⟩
    rcases List.eq_nil_or_concat latest with rfl | ⟨latest', last, rfl⟩
    · obtain ⟨-, hlast⟩ := List.append_inj' heq rfl
      cases hlast
      refine .inl ⟨hends, hlow, ?_⟩
      exact hhigh
    · rw [List.concat_eq_append] at heq hlow hhigh
      rw [← List.cons_append, ← List.append_assoc] at heq
      obtain ⟨husers, hlast⟩ := List.append_inj' heq rfl
      cases hlast
      have htotal : estimateMessages lib (latest' ++ [.user base content]) =
          estimateMessages lib latest' + estimateMessageTokens lib (.user base content) := by
        simp [estimateMessages]
      rw [htotal] at hlow hhigh
      exact .inr ⟨by omega, older, base', content', latest', husers, hends, by omega, by omega⟩
  · rintro (⟨hends, hlow, hhigh⟩ | ⟨hfits, older, base', content', latest, rfl, hends, hlow, hhigh⟩)
    · exact ⟨users, base, content, [], rfl, hends, hlow, hhigh⟩
    · have htotal : estimateMessages lib (latest ++ [.user base content]) =
          estimateMessages lib latest + estimateMessageTokens lib (.user base content) := by
        simp [estimateMessages]
      refine ⟨older, base', content', latest ++ [.user base content], ?_, hends, ?_, ?_⟩
      · rw [List.append_assoc, List.cons_append]
      · rw [htotal]
        omega
      · rw [htotal]
        omega

theorem not_overheadUnpaid_nil (budget : Nat) : ¬ OverheadUnpaid lib budget [] := by
  rintro ⟨older, base', content', latest, heq, -⟩
  exact absurd heq.symm (List.append_ne_nil_of_right_ne_nil older (List.cons_ne_nil _ _))

/-- What is retained is within the budget exactly if the overhead is always paid. -/
theorem retainLatest_tokens (remaining : Nat) (messages : List Message) :
    estimateMessages lib (retainLatest lib remaining messages) ≤ remaining ↔
      ¬ OverheadUnpaid lib remaining (messages.filter Message.isUser).reverse := by
  induction messages generalizing remaining with
  | nil => exact iff_of_true (Nat.zero_le _) (not_overheadUnpaid_nil lib remaining)
  | cons message messages ih =>
    cases message with
    | user base content =>
      have huser : Message.isUser (.user base content) = true := rfl
      have hcost := four_le_userTokens lib base content
      rw [List.filter_cons_of_pos huser, List.reverse_cons, overheadUnpaid_concat, retainLatest]
      by_cases hfits : estimateMessageTokens lib (.user base content) ≤ remaining
      · have hrest := ih (remaining - estimateMessageTokens lib (.user base content))
        rw [if_pos hfits, estimateMessages_cons]
        constructor
        · rintro hle (⟨-, -, hfew⟩ | ⟨-, hunpaid⟩)
          · omega
          · exact hrest.mp (by omega) hunpaid
        · intro hpaid
          have hle := hrest.mpr fun hunpaid => hpaid (.inr ⟨hfits, hunpaid⟩)
          omega
      · rw [if_neg hfits]
        by_cases hsome : 0 < remaining
        · rw [if_pos hsome, truncateUserMessage_tokens lib base hsome]
          constructor
          · rintro hpaid (⟨hends, -, hfew⟩ | ⟨hle, -⟩)
            · exact hpaid ⟨hends, hfew⟩
            · exact hfits hle
          · rintro hpaid ⟨hends, hfew⟩
            exact hpaid (.inl ⟨hends, hsome, hfew⟩)
        · rw [if_neg hsome]
          refine iff_of_true (Nat.zero_le _) ?_
          rintro (⟨-, hlow, -⟩ | ⟨hle, -⟩)
          · exact hsome hlow
          · exact hfits hle
    | assistant => exact ih remaining
    | toolResult => exact ih remaining
    | custom => exact ih remaining
    | system => exact ih remaining

/-! ## The retained messages -/

/-- A compaction retains an end of the user messages, in their order and only the oldest perhaps
shortened. It has at most 64,000 tokens exactly if no message that ends in an empty text is next
when one, two or three tokens are left. -/
theorem retained_user_messages_bounded (messages : List Message) :
    IsMessagesEnd (messages.filter Message.isUser) (retainedUserMessages lib messages) ∧
      (estimateMessages lib (retainedUserMessages lib messages) ≤ 64000 ↔
        ¬ OverheadUnpaid lib 64000 (messages.filter Message.isUser)) := by
  have hend := retainLatest_end lib 64000 messages.reverse
  have htokens := retainLatest_tokens lib 64000 messages.reverse
  rw [List.filter_reverse, List.reverse_reverse] at hend htokens
  exact ⟨hend, by rw [retainedUserMessages, estimateMessages_reverse]; exact htokens⟩

/-- A message of 63,999 tokens. -/
def almostAll : List ContentPart :=
  List.replicate 6 (.image "" (some .original) none) ++
    List.replicate 47 (.image "" (some .low) none)

/-- An empty message before a message of 63,999 tokens is retained with it. -/
theorem retained_user_messages_over : ¬ (∀ (lib : Foreign) (messages : List Message),
    estimateMessages lib (retainedUserMessages lib messages) ≤ 64000) := by
  intro hall
  have hover := hall (ToolExecution.tableLib []) [.user .default [.text "" none], .user .default almostAll]
  revert hover
  decide

end AgentPlatform.Harness.Compaction
