import ComponentAudit.Proofs.Style.Nesting
import ComponentAudit.Proofs.Text.Cut
import Mathlib.Data.List.TakeWhile

/-! # What a selector is classified by

Unwrapping takes one turn after the other while the selector mentions `:global`, and each turn leaves
a shorter selector without white space at its ends. So it ends, and what is left of a selector that
mentioned `:global` is never white space only. Hence the only selectors without a classification are
white space with a blank in it (`classify?_eq_none_iff`). Wrappers around a selector on one line are
taken off one by one, whatever brackets the selector itself holds (`unwrap_inGlobal`). -/

namespace ComponentAudit

namespace Text

/-- A text without words is white space throughout. -/
theorem words_eq_nil_iff {t : Text} : words t = [] ↔ Blank t := by
  refine ⟨fun h => ?_, words_blank⟩
  induction t with
  | nil => exact fun c hc => (List.not_mem_nil hc).elim
  | cons c t ih =>
    rw [words] at h
    split at h
    · rename_i hc
      exact List.forall_mem_cons.mpr ⟨hc, ih h⟩
    · split at h
      · cases h
      · exact absurd h (consHead_ne_nil c _)

theorem dropPrefix?_append (head rest : Text) : dropPrefix? head (head ++ rest) = some rest := by
  rw [dropPrefix?, if_pos (List.isPrefixOf_iff_prefix.mpr (List.prefix_append head rest)),
    List.drop_left]

theorem mentions_eq_false_of_infix {t part needle : Text} (hpart : part <:+: t)
    (h : mentions t needle = false) : mentions part needle = false := by
  rw [← Bool.not_eq_true, mentions_iff_infix] at h ⊢
  exact fun hneedle => h (hneedle.trans hpart)

end Text

namespace Selector

/-! ## The loop -/

/-- A turn leaves nothing at the ends of a selector that another trimming would take off. -/
theorem trim_unwrapStep (selector : Text) : Text.trim (unwrapStep selector) = unwrapStep selector := by
  unfold unwrapStep
  split
  · rename_i inner hinner
    unfold globalBody? at hinner
    obtain ⟨body, -, hinner⟩ := Option.bind_eq_some_iff.mp hinner
    simp only at hinner
    split at hinner
    · rw [← Option.some.inj hinner]
      exact Text.trim_trim _
    · cases hinner
  · simp only
    split
    · decide
    · exact Text.trim_trim _

theorem unwrap_of_mention {selector : Text} (h : Text.mentions selector ":global" = true) :
    unwrap selector = unwrap (unwrapStep selector) := by
  rw [unwrap, dif_pos h]

theorem unwrap_of_no_mention {selector : Text} (h : Text.mentions selector ":global" = false) :
    unwrap selector = selector := by
  rw [unwrap, dif_neg (ne_true_of_eq_false h)]

/-- The turns of unwrapping a selector: as many as it mentions `:global`, and no more. -/
structure UnwrapsIn (turns : Nat) (selector : Text) : Prop where
  mentions : ∀ turn < turns, Text.mentions (unwrapStep^[turn] selector) ":global" = true
  stops : Text.mentions (unwrapStep^[turns] selector) ":global" = false
  result : unwrap selector = unwrapStep^[turns] selector

/-- Unwrapping ends, at the latest when each character has cost one turn. -/
theorem exists_unwrapsIn (selector : Text) : ∃ turns ≤ selector.length, UnwrapsIn turns selector := by
  fun_induction unwrap selector with
  | case1 selector hmention ih =>
    obtain ⟨turns, hle, hturns⟩ := ih
    have hshorter := length_unwrapStep_lt hmention
    refine ⟨turns + 1, by omega, fun turn hturn => ?_, hturns.stops, ?_⟩
    · cases turn with
      | zero => exact hmention
      | succ turn => exact hturns.mentions turn (by omega)
    · rw [unwrap_of_mention hmention]
      exact hturns.result
  | case2 selector hmention =>
    have hstop := Bool.eq_false_iff.mpr hmention
    exact ⟨0, Nat.zero_le _, fun turn hturn => absurd hturn (Nat.not_lt_zero turn), hstop,
      unwrap_of_no_mention hstop⟩

theorem UnwrapsIn.trim_eq {turns : Nat} {selector : Text} (h : UnwrapsIn turns selector)
    (hmention : Text.mentions selector ":global" = true) :
    Text.trim (unwrap selector) = unwrap selector := by
  cases turns with
  | zero => exact absurd (hmention.symm.trans h.stops) (by decide)
  | succ turns =>
    rw [h.result, Function.iterate_succ_apply']
    exact trim_unwrapStep _

/-! ## Selectors without a classification -/

theorem classifyLocal?_eq_none_iff {selector : Text} :
    classifyLocal? selector = none ↔ ' ' ∈ selector ∧ Blank selector := by
  constructor
  · intro h
    unfold classifyLocal? at h
    split at h
    · rename_i hlast
      have hwords := List.getLast?_eq_none_iff.mp (Option.map_eq_none_iff.mp h)
      exact ⟨by simpa using (Bool.and_eq_true_iff.mp hlast).1, Text.words_eq_nil_iff.mp hwords⟩
    · repeat' split at h
      all_goals cases h
  · rintro ⟨hmem, hblank⟩
    have hcombinators : selector.any (fun c => c == ':' || c == '>' || c == '+' || c == '~') = false := by
      refine List.any_eq_false.mpr fun c hc => ?_
      have hspace := hblank c hc
      simp only [Bool.or_eq_true, beq_iff_eq, not_or]
      refine ⟨⟨⟨?_, ?_⟩, ?_⟩, ?_⟩ <;> (rintro rfl; revert hspace; decide)
    unfold classifyLocal?
    rw [if_pos (by simp [hmem, hcombinators]), Text.words_blank hblank]
    rfl

/-- A selector has no classification if it is white space with a blank in it, and only then. -/
theorem classify?_eq_none_iff {selector : Text} :
    classify? selector = none ↔ ' ' ∈ selector ∧ Blank selector := by
  unfold classify?
  split
  · rename_i hmention
    obtain ⟨turns, -, hturns⟩ := exists_unwrapsIn selector
    have hglobal := (Text.mentions_iff_infix _ _).mp hmention
    rw [Option.map_eq_none_iff, classifyLocal?_eq_none_iff]
    constructor
    · rintro ⟨hmem, hblank⟩
      rw [Text.eq_nil_of_trim_eq (hturns.trim_eq hmention) hblank] at hmem
      cases hmem
    · rintro ⟨-, hblank⟩
      have hcolon : ':' ∈ selector := hglobal.subset (by decide)
      exact absurd hcolon (hblank.not_mem (by decide))
  · exact classifyLocal?_eq_none_iff

/-- A selector that is empty or shows some character has a classification. -/
theorem classify?_eq_some {selector : Text} (h : selector = [] ∨ ∃ c ∈ selector, isSpace c = false) :
    classify? selector = some (classify selector) := by
  have hsome : classify? selector ≠ none := by
    rw [ne_eq, classify?_eq_none_iff]
    rintro ⟨hmem, hblank⟩
    rcases h with rfl | ⟨c, hc, hspace⟩
    · cases hmem
    · exact hblank.not_mem hspace hc
  obtain ⟨found, hfound⟩ := Option.ne_none_iff_exists'.mp hsome
  rw [classify, hfound, Option.getD_some]

/-! ## Wrappers -/

/-- A selector in a wrapper `:global(…)`. -/
def inGlobal (selector : Text) : Text := ":global(" ++ (selector ++ [')'])

theorem mentions_inGlobal (selector : Text) : Text.mentions (inGlobal selector) ":global" = true := by
  rw [Text.mentions_iff_infix]
  exact ⟨[], '(' :: (selector ++ [')']), rfl⟩

theorem lineFeed_not_mem_inGlobal {selector : Text} (h : '\n' ∉ selector) :
    '\n' ∉ inGlobal selector := by
  unfold inGlobal
  rw [List.mem_append, List.mem_append, not_or, not_or]
  exact ⟨by decide, h, by decide⟩

theorem lineFeed_not_mem_iterate (n : Nat) {selector : Text} (h : '\n' ∉ selector) :
    '\n' ∉ inGlobal^[n] selector := by
  induction n with
  | zero => exact h
  | succ n ih =>
    rw [Function.iterate_succ_apply']
    exact lineFeed_not_mem_inGlobal ih

theorem trim_inGlobal (selector : Text) : Text.trim (inGlobal selector) = inGlobal selector := by
  unfold inGlobal
  refine Text.trim_of_ends (fun c rest h => ?_) fun c front h => ?_
  · rw [← List.head_eq_of_cons_eq h]
    decide
  · rw [← List.append_assoc] at h
    rw [← (List.append_singleton_inj.mp h).2]
    decide

/-- A turn takes off the wrapper: it ends with its own bracket, so nothing inside can end it. -/
theorem unwrapStep_inGlobal {selector : Text} (h : '\n' ∉ selector) :
    unwrapStep (inGlobal selector) = Text.trim selector := by
  have hright : Text.trimRight (selector ++ [')']) = selector ++ [')'] := by
    refine Text.trimRight_of_last fun c front heq => ?_
    rw [← (List.append_singleton_inj.mp heq).2]
    decide
  have hbody : globalBody? (inGlobal selector) = some (Text.trim selector) := by
    unfold inGlobal
    rw [globalBody?, Text.dropPrefix?_append, Option.bind_eq_bind, Option.bind_some]
    simp only [hright, List.getLast?_concat, List.dropLast_concat]
    rw [if_pos (by simp [h])]
  rw [unwrapStep, hbody]

/-- Unwrapping takes off all wrappers and leaves the selector without white space at its ends. -/
theorem unwrap_inGlobal (n : Nat) {selector : Text} (hline : '\n' ∉ selector)
    (hglobal : Text.mentions selector ":global" = false) :
    unwrap (inGlobal^[n + 1] selector) = Text.trim selector := by
  induction n with
  | zero =>
    rw [Function.iterate_one, unwrap_of_mention (mentions_inGlobal selector),
      unwrapStep_inGlobal hline]
    exact unwrap_of_no_mention (Text.mentions_eq_false_of_infix (Text.trim_infix selector) hglobal)
  | succ n ih =>
    have htrim : Text.trim (inGlobal^[n + 1] selector) = inGlobal^[n + 1] selector := by
      rw [Function.iterate_succ_apply']
      exact trim_inGlobal _
    rw [Function.iterate_succ_apply', unwrap_of_mention (mentions_inGlobal _),
      unwrapStep_inGlobal (lineFeed_not_mem_iterate (n + 1) hline), htrim, ih]

/-- Unwrapping ends for every selector. A selector on one line that does not mention `:global` is
classified as it stands, and can be if it is empty or shows some character; inside any number of
wrappers it is classified as it stands without white space at its ends, and counts as used. -/
theorem classification_inGlobal :
    (∀ selector, ∃ turns ≤ selector.length, UnwrapsIn turns selector) ∧
    ∀ selector : Text, '\n' ∉ selector → Text.mentions selector ":global" = false →
      classify? selector = classifyLocal? selector ∧
      ((selector = [] ∨ ∃ c ∈ selector, isSpace c = false) →
        ∃ found, classifyLocal? selector = some found) ∧
      ∃ found, classifyLocal? (Text.trim selector) = some found ∧
        ∀ n, classify? (inGlobal^[n + 1] selector) = some { found with autoUse := some .global } := by
  refine ⟨exists_unwrapsIn, fun selector hline hglobal => ?_⟩
  have hlocal : classify? selector = classifyLocal? selector := by
    rw [classify?, if_neg (ne_true_of_eq_false hglobal)]
  have htrimmed : classifyLocal? (Text.trim selector) ≠ none := by
    rw [ne_eq, classifyLocal?_eq_none_iff]
    rintro ⟨hmem, hblank⟩
    rw [Text.eq_nil_of_trim_eq (Text.trim_trim selector) hblank] at hmem
    cases hmem
  obtain ⟨found, hfound⟩ := Option.ne_none_iff_exists'.mp htrimmed
  refine ⟨hlocal, fun hshows => ⟨_, hlocal ▸ classify?_eq_some hshows⟩, found, hfound, fun n => ?_⟩
  have hmention : Text.mentions (inGlobal^[n + 1] selector) ":global" = true := by
    rw [Function.iterate_succ_apply']
    exact mentions_inGlobal _
  rw [classify?, if_pos hmention, unwrap_inGlobal n hline hglobal, hfound, Option.map_some]

/-- A bracket in the selector does not end the wrapper. -/
theorem classification_inGlobal_notSelector :
    '\n' ∉ (".a:not(.b) " : Text) ∧ Text.mentions ".a:not(.b) " ":global" = false ∧
    classify? ":global(:global(.a:not(.b) ))" = some ⟨.cssClass, "a", some .global⟩ := by
  have hline : '\n' ∉ (".a:not(.b) " : Text) := by decide
  have hglobal : Text.mentions ".a:not(.b) " ":global" = false := by decide
  obtain ⟨-, -, found, hfound, hwrapped⟩ := classification_inGlobal.2 ".a:not(.b) " hline hglobal
  have hlocal : classifyLocal? (Text.trim ".a:not(.b) ") = some ⟨.cssClass, "a", none⟩ := by
    decide +kernel
  rw [hlocal] at hfound
  obtain rfl := Option.some.inj hfound
  exact ⟨hline, hglobal, hwrapped 1⟩

end Selector

end ComponentAudit
