import ComponentAudit.Proofs.Text.Line
import ComponentAudit.Proofs.Text.Split
import ComponentAudit.Proofs.Text.Trim

/-! # Lines between any line breaks

A line feed is not the only line break, so a text whose parts were joined with line feeds may be cut in
more places. Each part is cut by itself (`lines_flatMap`); it stays in one piece if it is `Whole`, and the
trimmed lines are the trimmed parts, each at its number, exactly if the parts are `Intact`. -/

namespace ComponentAudit

namespace Text

/-! ## One line break after the other -/

theorem lines_ne_nil {t : Text} (h : t ≠ []) : lines t ≠ [] := by
  fun_cases lines t with
  | case1 => exact absurd rfl h
  | case2 rest => simp
  | case3 c rest _ _ => simp
  | case4 c rest _ _ => exact consHead_ne_nil c _

/-- Only a carriage return looks at the character behind it. -/
theorem lines_cons {c : Char} {rest : Text} (h : c = '\r' → rest.head? ≠ some '\n') :
    lines (c :: rest) = if isLineBreak c then [] :: lines rest else consHead c (lines rest) := by
  rw [lines]
  rintro more rfl rfl
  exact h rfl rfl

theorem lines_lineFeed (rest : Text) : lines ('\n' :: rest) = [] :: lines rest := by
  rw [lines_cons fun h => absurd h (by decide), if_pos (by decide)]

theorem lines_of_not_break {c : Char} (h : isLineBreak c = false) (rest : Text) :
    lines (c :: rest) = consHead c (lines rest) := by
  rw [lines_cons, if_neg (by simp [h])]
  rintro rfl
  cases h

/-- The lines hold every character but the line breaks. -/
theorem flatten_lines (t : Text) : (lines t).flatten = t.filter (!isLineBreak ·) := by
  fun_induction lines t with
  | case1 => rfl
  | case2 rest ih =>
    have hfeed : isLineBreak '\n' = true := by decide
    have hreturn : isLineBreak '\r' = true := by decide
    rw [List.flatten_cons, ih, List.filter_cons_of_neg (by simp [hreturn]),
      List.filter_cons_of_neg (by simp [hfeed]), List.nil_append]
  | case3 c rest _ hc ih =>
    rw [List.flatten_cons, ih, List.filter_cons_of_neg (by simp [hc]), List.nil_append]
  | case4 c rest _ hc ih =>
    have hhead : ∀ parts : List Text, (consHead c parts).flatten = c :: parts.flatten := by
      intro parts
      cases parts <;> rfl
    rw [hhead, ih, List.filter_cons_of_pos (by simp [hc])]

theorem of_mem_lines {t line : Text} {c : Char} (hline : line ∈ lines t) (hc : c ∈ line) :
    c ∈ t ∧ isLineBreak c = false := by
  have hmem : c ∈ (lines t).flatten := List.mem_flatten_of_mem hline hc
  rw [flatten_lines, List.mem_filter] at hmem
  simpa using hmem

/-- A line feed ends what stands in front of it, whatever follows. -/
theorem lines_append_lineFeed (t more : Text) :
    lines (t ++ '\n' :: more) = lines (t ++ ['\n']) ++ lines more := by
  fun_induction lines t with
  | case1 => rw [List.nil_append, List.nil_append, lines_lineFeed, lines_lineFeed]; rfl
  | case2 rest ih => rw [List.cons_append, List.cons_append, List.cons_append, List.cons_append, lines, lines, ih]; rfl
  | case3 c rest hpair hc ih =>
    by_cases hreturn : c = '\r' ∧ rest = []
    · obtain ⟨rfl, rfl⟩ := hreturn
      rfl
    · have hnext : ∀ behind : Text, c = '\r' → (rest ++ '\n' :: behind).head? ≠ some '\n' := by
        intro behind hr
        cases rest with
        | nil => exact absurd ⟨hr, rfl⟩ hreturn
        | cons d rest =>
          intro hd
          exact hpair rest hr (congrArg (· :: rest) (Option.some.inj hd))
      rw [List.cons_append, List.cons_append, lines_cons (hnext more), lines_cons (hnext []), if_pos hc,
        if_pos hc, ih]
      rfl
  | case4 c rest _ hc ih =>
    have hbreak : isLineBreak c = false := Bool.not_eq_true _ ▸ hc
    rw [List.cons_append, List.cons_append, lines_of_not_break hbreak, lines_of_not_break hbreak, ih,
      consHead_append c (lines_ne_nil (by simp))]

/-- Parts with a line feed behind each are cut part by part. -/
theorem lines_flatMap (parts : List Text) :
    lines (parts.flatMap (· ++ ['\n'])) = parts.flatMap fun part => lines (part ++ ['\n']) := by
  induction parts with
  | nil => rfl
  | cons part parts ih =>
    rw [List.flatMap_cons, List.flatMap_cons, List.append_assoc, List.singleton_append,
      lines_append_lineFeed, ih]

/-! ## The first line -/

/-- What stands from the first line break on. -/
def fromBreak (t : Text) : Text := t.dropWhile (!isLineBreak ·)

/-- A text to which a line feed adds no second line: it has no line break, or only a carriage return at
its end, which makes one line break with the line feed. -/
def Whole (t : Text) : Prop := fromBreak t = [] ∨ fromBreak t = ['\r']

theorem fromBreak_cons {c : Char} (hc : isLineBreak c = false) (t : Text) :
    fromBreak (c :: t) = fromBreak t :=
  List.dropWhile_cons_of_pos (by simp [hc])

/-- A line break other than a final carriage return is followed by another line. -/
theorem lines_break {c : Char} (hc : isLineBreak c = true) {t : Text} (h : ¬ (c = '\r' ∧ t = [])) :
    ∃ rest, rest <:+ t ∧ lines (c :: t ++ ['\n']) = [] :: lines (rest ++ ['\n']) := by
  by_cases hpair : c = '\r' ∧ t.head? = some '\n'
  · obtain ⟨rfl, hhead⟩ := hpair
    obtain ⟨rest, rfl⟩ := List.head?_eq_some_iff.mp hhead
    exact ⟨rest, List.suffix_cons _ _, by rw [List.cons_append, List.cons_append, lines]⟩
  · refine ⟨t, List.suffix_refl t, ?_⟩
    rw [List.cons_append, lines_cons, if_pos hc]
    intro hreturn hhead
    cases t with
    | nil => exact h ⟨hreturn, rfl⟩
    | cons d t => exact hpair ⟨hreturn, hhead⟩

/-- The first line is what stands in front of the first line break, and a text that is not whole has
another one. Only what follows the break is in other lines. -/
theorem lines_part (t : Text) :
    ∃ more, lines (t ++ ['\n']) = t.takeWhile (!isLineBreak ·) :: more ∧ (more = [] ↔ Whole t) ∧
      ∀ line ∈ more, ∀ c ∈ line, c ∈ fromBreak t := by
  induction t with
  | nil => exact ⟨[], rfl, by simp [Whole, fromBreak], by simp⟩
  | cons c t ih =>
    cases hc : isLineBreak c with
    | false =>
      obtain ⟨more, hlines, hwhole, hmem⟩ := ih
      refine ⟨more, ?_, ?_, ?_⟩
      · rw [List.cons_append, lines_of_not_break hc, hlines, List.takeWhile_cons_of_pos (by simp [hc])]
        rfl
      · rw [hwhole, Whole, Whole, fromBreak_cons hc]
      · rwa [fromBreak_cons hc]
    | true =>
      have hfrom : fromBreak (c :: t) = c :: t := List.dropWhile_cons_of_neg (by simp [hc])
      rw [List.takeWhile_cons_of_neg (by simp [hc]), Whole, hfrom]
      by_cases hend : c = '\r' ∧ t = []
      · obtain ⟨rfl, rfl⟩ := hend
        exact ⟨[], rfl, by simp, by simp⟩
      · obtain ⟨rest, hrest, hlines⟩ := lines_break hc hend
        refine ⟨lines (rest ++ ['\n']), hlines, ?_, fun line hline d hd => ?_⟩
        · exact iff_of_false (lines_ne_nil (by simp)) (by simpa using hend)
        · obtain ⟨hmem, hbreak⟩ := of_mem_lines hline hd
          rcases List.mem_append.mp hmem with hmem | hmem
          · exact List.mem_cons_of_mem c (hrest.subset hmem)
          · rw [List.mem_singleton.mp hmem] at hbreak
            cases hbreak

/-- A text without line breaks is a line. -/
theorem lines_of_unbroken {t : Text} (h : ∀ c ∈ t, isLineBreak c = false) : lines (t ++ ['\n']) = [t] := by
  obtain ⟨more, hlines, hwhole, -⟩ := lines_part t
  have hkeep : ∀ c ∈ t, (!isLineBreak c) = true := fun c hc => by simp [h c hc]
  have hnone : fromBreak t = [] := List.dropWhile_eq_nil_iff.mpr hkeep
  rw [hlines, hwhole.mpr (.inl hnone), List.takeWhile_eq_self_iff.mpr hkeep]

/-- The trimmed first line is the trimmed text if only white space follows its first line break. -/
theorem trim_takeWhile_eq_iff (t : Text) :
    trim (t.takeWhile (!isLineBreak ·)) = trim t ↔ Blank (fromBreak t) := by
  have hsplit : t.takeWhile (!isLineBreak ·) ++ fromBreak t = t := List.takeWhile_append_dropWhile
  constructor
  · intro h
    have hink := congrArg (List.filter (!isSpace ·)) h
    rw [filter_ink_trim, filter_ink_trim] at hink
    have hnone : (fromBreak t).filter (!isSpace ·) = [] := by
      have hcut := congrArg (List.filter (!isSpace ·)) hsplit
      rw [List.filter_append, ← hink] at hcut
      exact List.append_right_eq_self.mp hcut
    intro c hc
    simpa using List.filter_eq_nil_iff.mp hnone c hc
  · intro h
    rw [← trim_append_blank _ h, hsplit]

/-! ## Parts at their numbers -/

/-- Parts that keep their numbers among the trimmed lines, and their text. Behind its first line break a
part holds white space at most; if that gives another line, all later parts have to be white space. -/
def Intact : List Text → Prop
  | [] => True
  | part :: rest => Blank (fromBreak part) ∧ (Whole part ∨ ∀ later ∈ rest, Blank later) ∧ Intact rest

theorem intact_of_blank {parts : List Text} (h : ∀ part ∈ parts, Blank part) : Intact parts := by
  induction parts with
  | nil => trivial
  | cons part parts ih =>
    obtain ⟨hpart, hrest⟩ := List.forall_mem_cons.mp h
    exact ⟨fun c hc => hpart c ((List.dropWhile_sublist _).subset hc), .inr hrest, ih hrest⟩

/-- The trimmed lines of parts with a line feed behind each. -/
def trimmedLines (parts : List Text) : List Text :=
  (parts.flatMap fun part => lines (part ++ ['\n'])).map trim

/-- Behind a blank line too many, only blank parts look as if they stood at their numbers. -/
theorem take_blank_trimmedLines (parts : List Text) :
    ∀ blanks : List Text, blanks ≠ [] → (∀ line ∈ blanks, Blank line) →
      ((blanks.map trim ++ trimmedLines parts).take parts.length = parts.map trim ↔
        ∀ part ∈ parts, Blank part) := by
  induction parts with
  | nil => simp
  | cons part parts ih =>
    intro blanks hne hblank
    obtain ⟨blank, blanks, rfl⟩ := List.exists_cons_of_ne_nil hne
    have hfirst : trim blank = [] := trim_of_blank (hblank blank List.mem_cons_self)
    have hlines : trimmedLines (part :: parts) =
        (lines (part ++ ['\n'])).map trim ++ trimmedLines parts := by
      simp [trimmedLines]
    rw [List.map_cons, List.cons_append, List.length_cons, List.take_succ_cons, List.map_cons,
      List.cons.injEq, hfirst, eq_comm, trim_eq_nil_iff, List.forall_mem_cons, hlines,
      ← List.append_assoc, ← List.map_append]
    refine and_congr_right fun hpart => ih _ ?_ ?_
    · exact fun hnil => lines_ne_nil (by simp) (List.append_eq_nil_iff.mp hnil).2
    · refine List.forall_mem_append.mpr ⟨(List.forall_mem_cons.mp hblank).2, fun line hline c hc => ?_⟩
      rcases List.mem_append.mp (of_mem_lines hline hc).1 with hmem | hmem
      · exact hpart c hmem
      · rw [List.mem_singleton.mp hmem]
        rfl

/-- The trimmed lines are the trimmed parts, each at its number, exactly if the parts are intact. -/
theorem take_trimmedLines_eq_iff (parts : List Text) :
    (trimmedLines parts).take parts.length = parts.map trim ↔ Intact parts := by
  induction parts with
  | nil => simp [Intact]
  | cons part parts ih =>
    obtain ⟨more, hlines, hwhole, hmem⟩ := lines_part part
    have hcut : trimmedLines (part :: parts) =
        trim (part.takeWhile (!isLineBreak ·)) :: (more.map trim ++ trimmedLines parts) := by
      simp [trimmedLines, hlines]
    rw [hcut, List.length_cons, List.take_succ_cons, List.map_cons, List.cons.injEq,
      trim_takeWhile_eq_iff, Intact]
    refine and_congr_right fun hblank => ?_
    by_cases hpart : Whole part
    · rw [hwhole.mpr hpart]
      simpa [hpart] using ih
    · rw [take_blank_trimmedLines parts more (mt hwhole.mp hpart) fun line hline c hc =>
        hblank c (hmem line hline c hc)]
      simpa [hpart] using intact_of_blank

end Text

end ComponentAudit
