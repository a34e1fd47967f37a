import ComponentAudit.Proofs.Script.Bracket

/-! # Destructuring patterns

A pattern takes a value apart: `{` parts `}` or `[` parts `]`, each part with a key or dots in front of
its target and a default value behind it, and a target is a name or a pattern again. The reader keeps
no stack for the patterns it is in. It counts brackets and remembers the depth of one default value, and
still the names that it binds are exactly the names of the tree (`ofPattern_bindings`). -/

namespace ComponentAudit

namespace Destructuring

/-! ## Patterns and how they are written -/

/-- The text of a default value: without quotes, its brackets balanced, with no comma outside them, and
not to be taken for the end of an arrow. White space around the value is a part of it. -/
structure IsDefault (t : Text) : Prop where
  ne_nil : t ≠ []
  arrowless : t.head? ≠ some '>'
  nested : t.Nested
  commas : t.Encloses roundPairs ','

instance (t : Text) : Decidable (IsDefault t) :=
  decidable_of_iff (t ≠ [] ∧ t.head? ≠ some '>' ∧ t.Nested ∧ t.Encloses roundPairs ',')
    ⟨fun ⟨hne, harrow, hnested, hcommas⟩ => ⟨hne, harrow, hnested, hcommas⟩,
      fun h => ⟨h.ne_nil, h.arrowless, h.nested, h.commas⟩⟩

/-- White space between two tokens. -/
abbrev Space := { t : Text // Blank t }

abbrev Name := { t : Text // IsBindable t }

abbrev Default := { t : Text // IsDefault t }

inductive Brackets where
  | curly
  | square
  deriving DecidableEq

namespace Brackets

def opener : Brackets → Char
  | curly => '{'
  | square => '['

def closer : Brackets → Char
  | curly => '}'
  | square => ']'

end Brackets

/-- What stands in front of a target. -/
inductive Label where
  | bare
  /-- The key whose value goes to the target. -/
  | key (name : Name) (space : Space)
  /-- The dots of a target that gets the rest. -/
  | rest

-- curly and square brackets are read by the same rules, so what may stand in them is not told apart
mutual

/-- What a value goes to. -/
inductive Target where
  | name (name : Name)
  | pattern (brackets : Brackets) (inside : Parts)

/-- One of the parts of a pattern. A hole binds nothing. -/
inductive Part where
  | hole
  | bound (label : Label) (space : Space) (target : Target) (default? : Option (Space × Default))

/-- The parts of a pattern, with commas between them. -/
inductive Parts where
  | last (before : Space) (part : Part) (behind : Space)
  | next (before : Space) (part : Part) (behind : Space) (more : Parts)

end

def Label.text : Label → Text
  | bare => []
  | key name space => name.1 ++ (space.1 ++ [':'])
  | rest => "..."

/-- The default value of a part as it is written. -/
def defaultText (default? : Option (Space × Default)) : Text :=
  default?.elim [] fun (space, value) => space.1 ++ '=' :: value.1

mutual

def Target.text : Target → Text
  | .name name => name.1
  | .pattern brackets inside => brackets.opener :: (inside.text ++ [brackets.closer])

def Part.text : Part → Text
  | .hole => []
  | .bound label space target default? =>
    label.text ++ (space.1 ++ (target.text ++ defaultText default?))

def Parts.text : Parts → Text
  | .last before part behind => before.1 ++ (part.text ++ behind.1)
  | .next before part behind more => before.1 ++ (part.text ++ (behind.1 ++ ',' :: more.text))

end

-- the names of the targets from left to right, for a text that is written at an offset
mutual

def Target.bindings (offset : Nat) : Target → List Binding
  | .name name => [⟨name.1, offset⟩]
  | .pattern _ inside => inside.bindings (offset + 1)

def Part.bindings (offset : Nat) : Part → List Binding
  | .hole => []
  | .bound label space target _ => target.bindings (offset + label.text.length + space.1.length)

def Parts.bindings (offset : Nat) : Parts → List Binding
  | .last before part _ => part.bindings (offset + before.1.length)
  | .next before part behind more =>
    part.bindings (offset + before.1.length) ++
      more.bindings (offset + before.1.length + part.text.length + behind.1.length + 1)

end

/-! ## Reading a pattern -/

open Binding (patternFrom depthAfter defaultAfter isKey isOpener isCloser)

section Character

variable {c : Char} {rest : Text} {depth : Int} {default? : Option Int} {offset : Nat}

/-- The characters that patterns and default values are taken apart at. -/
def marks : List Char := ['\'', '"', '`', '(', ')', '[', ']', '{', '}', ',']

/-- An identifier has no mark in it. -/
theorem ne_mark_of_isIdentChar (h : isIdentChar c = true) : ∀ mark ∈ marks, c ≠ mark := by
  have hmarks : (marks.all fun mark => !isIdentChar mark) = true := by decide +kernel
  rintro mark hmark rfl
  have hmark := List.all_eq_true.mp hmarks c hmark
  rw [h] at hmark
  cases hmark

theorem isBracketOrQuote_of_isIdentChar (h : isIdentChar c = true) :
    Text.isBracketOrQuote c = false := by
  have hne := ne_mark_of_isIdentChar h
  simp only [marks, List.forall_mem_cons] at hne
  simp [Text.isBracketOrQuote, isQuote, roundPairs, hne]

theorem patternFrom_single (hquote : isQuote c = false) (hident : isIdentChar c = false) :
    patternFrom 0 depth default? offset (c :: rest) =
      patternFrom 0 (depthAfter depth c) (defaultAfter default? (depthAfter depth c) c rest.head?)
        (offset + 1) rest := by
  simp only [patternFrom, hquote, hident, Bool.false_and, Bool.false_eq_true, if_false]

/-- Characters that neither bind nor change the depth or the default value. -/
def isPassive (c : Char) : Bool :=
  !(isQuote c || isIdentChar c || isOpener c || isCloser c || c == ',' || c == '=')

theorem isPassive_of_isSpace (h : isSpace c = true) : isPassive c = true :=
  of_isSpace h (by decide +kernel)

theorem patternFrom_passive {run : Text} (h : ∀ c ∈ run, isPassive c = true) :
    patternFrom 0 depth default? offset (run ++ rest) =
      patternFrom 0 depth default? (offset + run.length) rest := by
  induction run generalizing offset with
  | nil => rfl
  | cons c run ih =>
    obtain ⟨hc, hrun⟩ := List.forall_mem_cons.mp h
    simp only [isPassive, Bool.not_eq_true', Bool.or_eq_false_iff, and_assoc] at hc
    obtain ⟨hquote, hident, hopen, hclose, hcomma, hequals⟩ := hc
    have hdepth : depthAfter depth c = depth := by
      simp only [depthAfter, hopen, hclose, Bool.false_eq_true, if_false]
    have hdefault : defaultAfter default? depth c (run ++ rest).head? = default? := by
      simp only [defaultAfter, hclose, hcomma, hequals, Bool.false_eq_true, if_false, Bool.false_and]
    rw [List.cons_append, patternFrom_single hquote hident, hdepth, hdefault, ih hrun, List.length_cons,
      Nat.add_assoc, Nat.add_comm 1]

theorem patternFrom_blank {space : Text} (h : Blank space) :
    patternFrom 0 depth default? offset (space ++ rest) =
      patternFrom 0 depth default? (offset + space.length) rest :=
  patternFrom_passive fun c hc => isPassive_of_isSpace (h c hc)

/-- What was dealt with is passed over. -/
theorem patternFrom_covered (run : Text) :
    patternFrom run.length depth default? offset (run ++ rest) =
      patternFrom 0 depth default? (offset + run.length) rest := by
  induction run generalizing offset with
  | nil => rfl
  | cons c run ih =>
    rw [List.length_cons, List.cons_append, patternFrom, ih, Nat.add_assoc, Nat.add_comm 1]

/-- A name binds if it is neither a key nor a part of a default value. -/
theorem patternFrom_name {name : Text} (hname : IsBindable name)
    (hrest : ∀ x, rest.head? = some x → isIdentChar x = false) :
    patternFrom 0 depth default? offset (name ++ rest) =
      (if default?.isNone && !isKey rest then [⟨name, offset⟩] else []) ++
        patternFrom 0 depth default? (offset + name.length) rest := by
  obtain ⟨⟨hne, hident⟩, hhead⟩ := hname
  obtain ⟨first, more, rfl⟩ := List.exists_cons_of_ne_nil hne
  obtain ⟨hfirst, hmore⟩ := List.forall_mem_cons.mp hident
  have hdigit : isDigit first = false := hhead
  have hquote : isQuote first = false :=
    (Bool.or_eq_false_iff.mp (isBracketOrQuote_of_isIdentChar hfirst)).1
  have hrun : (more ++ rest).takeWhile isIdentChar = more := takeWhile_append_of_stop hmore hrest
  have hcovered := @patternFrom_covered rest depth default? (offset + 1) more
  rw [List.cons_append, patternFrom]
  simp only [hquote, hfirst, hdigit, hrun, hcovered, List.drop_left, Bool.not_false, Bool.and_self,
    Bool.false_eq_true, if_false, if_true, List.length_cons, Nat.add_assoc, Nat.add_comm 1]

/-! ## Default values -/

/-- Inside a default value a name binds nothing, and it is the same to read it character by
character. -/
theorem patternFrom_covered_default {base : Int} {covered : Nat}
    (h : covered ≤ (rest.takeWhile isIdentChar).length) :
    patternFrom covered depth (some base) offset rest =
      patternFrom 0 depth (some base) offset rest := by
  induction rest generalizing covered offset with
  | nil => rfl
  | cons c rest ih =>
    cases covered with
    | zero => rfl
    | succ covered =>
      rw [List.takeWhile_cons] at h
      split at h
      · rename_i hident
        rw [List.length_cons, Nat.add_le_add_iff_right] at h
        have hne := ne_mark_of_isIdentChar hident
        simp only [marks, List.forall_mem_cons] at hne
        rw [patternFrom, ih h]
        by_cases hdigit : isDigit c = true
        · simp [patternFrom, depthAfter, defaultAfter, isQuote, isOpener, isCloser, hne, hdigit]
        · simp [patternFrom, isQuote, hne, hdigit, hident, ih (Nat.le_refl _)]
      · cases h

theorem patternFrom_ident_default {base : Int} (h : isIdentChar c = true) :
    patternFrom 0 depth (some base) offset (c :: rest) =
      patternFrom 0 depth (some base) (offset + 1) rest := by
  have hone : 1 ≤ ((c :: rest).takeWhile isIdentChar).length := by simp [h]
  exact (patternFrom_covered_default hone).symm

/-- A default value goes on behind a bracket or a comma that leaves its own brackets open. -/
theorem defaultAfter_some {base : Int} {next : Option Char}
    (hclose : isCloser c = true → base ≤ depth) (hcomma : c = ',' → base < depth) :
    defaultAfter (some base) depth c next = some base := by
  unfold defaultAfter
  split
  · rename_i hcloser
    simp [hclose hcloser]
  · split
    · rename_i heq
      simp [hcomma (beq_iff_eq.mp heq)]
    · split <;> rfl

/-- The depth follows the brackets of a default value. -/
theorem depthAfter_openRounds {front : Text} {base : Int}
    (hfront : ∀ pair ∈ roundPairs, front.count pair.2 ≤ front.count pair.1)
    (hnext : ∀ pair ∈ roundPairs, (front ++ [c]).count pair.2 ≤ (front ++ [c]).count pair.1) :
    depthAfter (base + Statement.openRounds front) c = base + Statement.openRounds (front ++ [c]) := by
  by_cases hopen : c = '(' ∨ c = '[' ∨ c = '{'
  · have hopener : isOpener c = true := by rcases hopen with rfl | rfl | rfl <;> rfl
    rw [depthAfter, if_pos hopener, Statement.openRounds_opener hopen hfront]
    omega
  · have hopener : ¬ isOpener c = true := by
      simpa [isOpener, or_comm, or_left_comm] using hopen
    by_cases hclose : c = ')' ∨ c = ']' ∨ c = '}'
    · have hcloser : isCloser c = true := by rcases hclose with rfl | rfl | rfl <;> rfl
      rw [depthAfter, if_neg hopener, if_pos hcloser, Statement.openRounds_closer hclose hnext]
      omega
    · have hcloser : ¬ isCloser c = true := by
        simpa [isCloser, or_comm, or_left_comm] using hclose
      rw [depthAfter, if_neg hopener, if_neg hcloser, Statement.openRounds_other hopen hclose]

/-- Behind each character of a default value the depth is that of its open brackets. -/
theorem patternFrom_cons_default {front : Text} {base : Int} (hquote : isQuote c = false)
    (hcomma : c = ',' → 0 < Statement.openRounds front)
    (hfront : ∀ pair ∈ roundPairs, front.count pair.2 ≤ front.count pair.1)
    (hnext : ∀ pair ∈ roundPairs, (front ++ [c]).count pair.2 ≤ (front ++ [c]).count pair.1) :
    patternFrom 0 (base + Statement.openRounds front) (some base) offset (c :: rest) =
      patternFrom 0 (base + Statement.openRounds (front ++ [c])) (some base) (offset + 1) rest := by
  by_cases hident : isIdentChar c = true
  · have hne := ne_mark_of_isIdentChar hident
    simp only [marks, List.forall_mem_cons] at hne
    have hdepth : Statement.openRounds (front ++ [c]) = Statement.openRounds front :=
      Statement.openRounds_other (by simp [hne]) (by simp [hne])
    rw [patternFrom_ident_default hident, hdepth]
  · have hdefault : ∀ next,
        defaultAfter (some base) (base + Statement.openRounds (front ++ [c])) c next = some base := by
      intro next
      refine defaultAfter_some (fun _ => by omega) fun hc => ?_
      have hopen : 0 < Statement.openRounds front := hcomma hc
      have hsame : Statement.openRounds (front ++ [c]) = Statement.openRounds front :=
        Statement.openRounds_other (by simp [hc]) (by simp [hc])
      omega
    rw [patternFrom_single hquote (by simpa using hident), depthAfter_openRounds hfront hnext, hdefault]

theorem patternFrom_append_default {front back : Text} {base : Int}
    (hquotes : ∀ c ∈ back, isQuote c = false)
    (hbalanced : ∀ pair ∈ roundPairs, Text.Balanced pair (front ++ back))
    (hcommas : Text.Encloses roundPairs ',' (front ++ back)) :
    patternFrom 0 (base + Statement.openRounds front) (some base) offset (back ++ rest) =
      patternFrom 0 base (some base) (offset + back.length) rest := by
  -- the text that is left, with the depth behind what was read of it
  induction back generalizing front offset with
  | nil =>
    rw [List.append_nil] at hbalanced
    rw [Statement.openRounds_of_balanced hbalanced]
    simp
  | cons c back ih =>
    obtain ⟨hc, hback⟩ := List.forall_mem_cons.mp hquotes
    have hsplit : front ++ c :: back = (front ++ [c]) ++ back := by simp
    rw [List.cons_append, patternFrom_cons_default hc
      (fun hcomma => Statement.openRounds_pos (hcomma ▸ hcommas).count_lt)
      (fun pair hpair => (hbalanced pair hpair).count_le)
      (fun pair hpair => (hsplit ▸ hbalanced pair hpair).count_le),
      ih hback (hsplit ▸ hbalanced) (hsplit ▸ hcommas), List.length_cons, Nat.add_assoc, Nat.add_comm 1]

/-- A default value is passed over whole. -/
theorem patternFrom_default {t : Text} (h : IsDefault t) :
    patternFrom 0 depth (some depth) offset (t ++ rest) =
      patternFrom 0 depth (some depth) (offset + t.length) rest := by
  have hpass := @patternFrom_append_default rest offset [] t depth h.nested.unquoted h.nested.balanced
    h.commas
  simpa [show Statement.openRounds [] = 0 from rfl] using hpass

end Character

/-! ## Reading a tree -/

/-- What may stand behind a target: its default value, the next part or the end of the pattern. -/
def Ends (rest : Text) : Prop :=
  ∀ c, (Text.trimLeft rest).head? = some c → c ∈ ['=', ',', '}', ']']

section Tree

variable {space rest : Text} {c : Char} {depth : Int} {default? : Option Int} {offset : Nat}

theorem ends_nil : Ends [] := by
  intro c hc
  cases hc

theorem ends_cons (hc : c ∈ ['=', ',', '}', ']']) : Ends (c :: rest) := by
  have hspace : ¬ isSpace c = true := by
    simp only [List.mem_cons, List.not_mem_nil, or_false] at hc
    rcases hc with rfl | rfl | rfl | rfl <;> decide
  intro d hd
  rw [Text.trimLeft, List.dropWhile_cons_of_neg hspace] at hd
  obtain rfl := Option.some.inj hd
  exact hc

theorem Ends.behind_blank (h : Ends rest) (hspace : Blank space) : Ends (space ++ rest) := by
  intro c hc
  rw [Text.trimLeft, List.dropWhile_append_of_pos hspace] at hc
  exact h c hc

/-- A name goes no further than to white space. -/
theorem isIdentChar_head_of_trimLeft {x : Char}
    (h : ∀ c, (Text.trimLeft rest).head? = some c → isIdentChar c = false)
    (hx : rest.head? = some x) : isIdentChar x = false := by
  obtain ⟨rest, rfl⟩ := List.head?_eq_some_iff.mp hx
  by_cases hspace : isSpace x = true
  · exact isIdentChar_of_isSpace hspace
  · exact h x (by rw [Text.trimLeft, List.dropWhile_cons_of_neg hspace, List.head?_cons])

theorem Ends.isIdentChar_head (h : Ends rest) {x : Char} (hx : rest.head? = some x) :
    isIdentChar x = false := by
  refine isIdentChar_head_of_trimLeft (fun c hc => ?_) hx
  have hmark := h c hc
  simp only [List.mem_cons, List.not_mem_nil, or_false] at hmark
  rcases hmark with rfl | rfl | rfl | rfl <;> decide +kernel

/-- A name in front of it is not a key. -/
theorem Ends.isKey_eq_false (h : Ends rest) : isKey rest = false := by
  rw [isKey, beq_eq_false_iff_ne]
  intro hcolon
  exact absurd (h ':' hcolon) (by decide)

/-- The default value that is being read, if any, is one of this depth. -/
def AtMost (depth : Int) (default? : Option Int) : Prop := ∀ base ∈ default?, base = depth

theorem atMost_none : AtMost depth none := nofun

theorem atMost_some : AtMost depth (some depth) := by
  rintro base ⟨⟩
  rfl

theorem patternFrom_comma (h : AtMost depth default?) :
    patternFrom 0 depth default? offset (',' :: rest) =
      patternFrom 0 depth none (offset + 1) rest := by
  have hdefault : defaultAfter default? depth ',' rest.head? = none := by
    cases default? with
    | none => rfl
    | some base =>
      obtain rfl := h base rfl
      simp [defaultAfter, isCloser]
  rw [patternFrom_single (by decide) (by decide +kernel), show depthAfter depth ',' = depth from rfl,
    hdefault]

theorem patternFrom_opener (brackets : Brackets) :
    patternFrom 0 depth none offset (brackets.opener :: rest) =
      patternFrom 0 (depth + 1) none (offset + 1) rest := by
  cases brackets <;> exact patternFrom_single (by decide) (by decide +kernel)

theorem patternFrom_closer (brackets : Brackets) (h : AtMost (depth + 1) default?) :
    patternFrom 0 (depth + 1) default? offset (brackets.closer :: rest) =
      patternFrom 0 depth none (offset + 1) rest := by
  have hcloser : isCloser brackets.closer = true := by cases brackets <;> rfl
  have hopener : isOpener brackets.closer = false := by cases brackets <;> rfl
  have hdepth : depthAfter (depth + 1) brackets.closer = depth := by
    rw [depthAfter, hopener, hcloser, if_neg Bool.false_ne_true, if_pos rfl, Int.add_sub_cancel]
  have hdefault : defaultAfter default? depth brackets.closer rest.head? = none := by
    rw [defaultAfter, if_pos hcloser, Option.filter_eq_none_iff]
    intro base hbase
    have := h base hbase
    simp
    omega
  have hquote : isQuote brackets.closer = false := by cases brackets <;> rfl
  have hident : isIdentChar brackets.closer = false := by cases brackets <;> decide +kernel
  rw [patternFrom_single hquote hident, hdepth, hdefault]

/-- Neither a key nor dots bind anything. -/
theorem Label.read (label : Label) :
    patternFrom 0 depth none offset (label.text ++ rest) =
      patternFrom 0 depth none (offset + label.text.length) rest := by
  cases label with
  | bare => rfl
  | rest => exact patternFrom_passive (List.all_eq_true.mp (by decide +kernel))
  | key name space =>
    have htrim : Text.trimLeft (space.1 ++ ':' :: rest) = ':' :: rest := by
      rw [Text.trimLeft, List.dropWhile_append_of_pos space.2]
      rfl
    have hkey : isKey (space.1 ++ ':' :: rest) = true := by
      rw [isKey, htrim]
      rfl
    have hstop : ∀ x, (space.1 ++ ':' :: rest).head? = some x → isIdentChar x = false := by
      refine fun x => isIdentChar_head_of_trimLeft fun c hc => ?_
      rw [htrim] at hc
      obtain rfl := Option.some.inj hc
      decide +kernel
    have hcolon : ∀ offset, patternFrom 0 depth none offset (':' :: rest) =
        patternFrom 0 depth none (offset + 1) rest := by
      intro offset
      exact @patternFrom_passive rest depth none offset [':'] (List.all_eq_true.mp (by decide +kernel))
    rw [Label.text, List.append_assoc, List.append_assoc, List.singleton_append,
      patternFrom_name name.2 hstop, hkey, patternFrom_blank space.2, hcolon]
    simp [Nat.add_assoc]

/-- A default value binds nothing. -/
theorem read_defaultText (value? : Option (Space × Default)) :
    ∃ state, AtMost depth state ∧
      patternFrom 0 depth none offset (defaultText value? ++ rest) =
        patternFrom 0 depth state (offset + (defaultText value?).length) rest := by
  cases value? with
  | none => exact ⟨none, atMost_none, rfl⟩
  | some found =>
    obtain ⟨space, value, hvalue⟩ := found
    obtain ⟨first, more, rfl⟩ := List.exists_cons_of_ne_nil hvalue.ne_nil
    have hfirst : (first :: more ++ rest).head? ≠ some '>' := hvalue.arrowless
    have hdefault : defaultAfter none depth '=' (first :: more ++ rest).head? = some depth := by
      simpa [defaultAfter, isCloser] using hfirst
    refine ⟨some depth, atMost_some, ?_⟩
    have htext : defaultText (some (space, ⟨first :: more, hvalue⟩)) ++ rest =
        space.1 ++ ('=' :: (first :: more ++ rest)) := by simp [defaultText]
    rw [htext, patternFrom_blank space.2, patternFrom_single (by decide) (by decide +kernel),
      show depthAfter depth '=' = depth from rfl, hdefault, patternFrom_default hvalue]
    simp [defaultText, Nat.add_assoc, Nat.add_comm 1]

mutual

theorem Target.read {depth : Int} {offset : Nat} {rest : Text} (target : Target) (hrest : Ends rest) :
    patternFrom 0 depth none offset (target.text ++ rest) =
      target.bindings offset ++ patternFrom 0 depth none (offset + target.text.length) rest := by
  cases target with
  | name name =>
    rw [Target.text, patternFrom_name name.2 fun x => hrest.isIdentChar_head, hrest.isKey_eq_false]
    rfl
  | pattern brackets inside =>
    have hends : Ends (brackets.closer :: rest) := by
      cases brackets <;> exact ends_cons (by decide)
    obtain ⟨state, hstate, hread⟩ := @Parts.read (depth + 1) (offset + 1) _ inside hends
    have htext : (Target.pattern brackets inside).text ++ rest =
        brackets.opener :: (inside.text ++ brackets.closer :: rest) := by simp [Target.text]
    have hlength : (Target.pattern brackets inside).text.length = inside.text.length + 2 := by
      simp [Target.text]
    rw [htext, patternFrom_opener, hread, patternFrom_closer brackets hstate, Target.bindings, hlength]
    congr 2
    omega

theorem Part.read {depth : Int} {offset : Nat} {rest : Text} (part : Part) (hrest : Ends rest) :
    ∃ state, AtMost depth state ∧ patternFrom 0 depth none offset (part.text ++ rest) =
      part.bindings offset ++ patternFrom 0 depth state (offset + part.text.length) rest := by
  cases part with
  | hole => exact ⟨none, atMost_none, rfl⟩
  | bound label space target default? =>
    have hends : Ends (defaultText default? ++ rest) := by
      cases default? with
      | none => exact hrest
      | some value =>
        have htext : defaultText (some value) ++ rest =
            value.1.1 ++ '=' :: (value.2.1 ++ rest) := by simp [defaultText]
        rw [htext]
        exact (ends_cons (by decide)).behind_blank value.1.2
    obtain ⟨state, hstate, hread⟩ := @read_defaultText rest depth
      (offset + label.text.length + space.1.length + target.text.length) default?
    refine ⟨state, hstate, ?_⟩
    have htext : (Part.bound label space target default?).text ++ rest =
        label.text ++ (space.1 ++ (target.text ++ (defaultText default? ++ rest))) := by simp [Part.text]
    have hlength : offset + (Part.bound label space target default?).text.length =
        offset + label.text.length + space.1.length + target.text.length +
          (defaultText default?).length := by
      simp [Part.text, Nat.add_assoc]
    rw [htext, label.read, patternFrom_blank space.2, target.read hends, hread, hlength, Part.bindings]

theorem Parts.read {depth : Int} {offset : Nat} {rest : Text} (parts : Parts) (hrest : Ends rest) :
    ∃ state, AtMost depth state ∧ patternFrom 0 depth none offset (parts.text ++ rest) =
      parts.bindings offset ++ patternFrom 0 depth state (offset + parts.text.length) rest := by
  cases parts with
  | last before part behind =>
    obtain ⟨state, hstate, hread⟩ :=
      @Part.read depth (offset + before.1.length) _ part (hrest.behind_blank behind.2)
    refine ⟨state, hstate, ?_⟩
    have htext : (Parts.last before part behind).text ++ rest =
        before.1 ++ (part.text ++ (behind.1 ++ rest)) := by simp [Parts.text]
    have hlength : offset + (Parts.last before part behind).text.length =
        offset + before.1.length + part.text.length + behind.1.length := by
      simp [Parts.text, Nat.add_assoc]
    rw [htext, patternFrom_blank before.2, hread, patternFrom_blank behind.2, hlength, Parts.bindings]
  | next before part behind more =>
    have hends : Ends (behind.1 ++ ',' :: (more.text ++ rest)) :=
      (ends_cons (by decide)).behind_blank behind.2
    obtain ⟨inner, hinner, hread⟩ := @Part.read depth (offset + before.1.length) _ part hends
    obtain ⟨state, hstate, hmore⟩ := @Parts.read depth
      (offset + before.1.length + part.text.length + behind.1.length + 1) _ more hrest
    refine ⟨state, hstate, ?_⟩
    have htext : (Parts.next before part behind more).text ++ rest =
        before.1 ++ (part.text ++ (behind.1 ++ ',' :: (more.text ++ rest))) := by simp [Parts.text]
    have hlength : offset + (Parts.next before part behind more).text.length =
        offset + before.1.length + part.text.length + behind.1.length + 1 + more.text.length := by
      simp only [Parts.text, List.length_append, List.length_cons]
      omega
    rw [htext, patternFrom_blank before.2, hread, patternFrom_blank behind.2, patternFrom_comma hinner,
      hmore, hlength, Parts.bindings, List.append_assoc]

end

end Tree

/-! ## The closing bracket -/

theorem nested_of_isName {name : Text} (h : IsName name) : name.Nested :=
  Text.nested_of_plain fun c hc => isBracketOrQuote_of_isIdentChar (h.2 c hc)

theorem nested_of_blank {space : Text} (h : Blank space) : space.Nested := by
  refine Text.nested_of_plain fun c hc => ?_
  exact of_isSpace (h c hc) (by decide +kernel)

theorem nested_singleton {c : Char} (h : Text.isBracketOrQuote c = false) : Text.Nested [c] :=
  Text.nested_of_plain fun _ hc => List.mem_singleton.mp hc ▸ h

theorem Label.nested (label : Label) : label.text.Nested := by
  cases label with
  | bare => exact Text.nested_of_plain nofun
  | key name space =>
    exact (nested_of_isName name.2.1).append ((nested_of_blank space.2).append (nested_singleton rfl))
  | rest => exact (nested_singleton rfl).append ((nested_singleton rfl).append (nested_singleton rfl))

theorem nested_defaultText (value? : Option (Space × Default)) : (defaultText value?).Nested := by
  cases value? with
  | none => exact Text.nested_of_plain nofun
  | some found =>
    exact (nested_of_blank found.1.2).append ((nested_singleton rfl).append found.2.2.nested)

theorem Brackets.mem_roundPairs (brackets : Brackets) :
    (brackets.opener, brackets.closer) ∈ roundPairs := by
  cases brackets <;> decide

mutual

theorem Target.nested (target : Target) : target.text.Nested := by
  cases target with
  | name name => exact nested_of_isName name.2.1
  | pattern brackets inside => exact inside.nested.brackets brackets.mem_roundPairs

theorem Part.nested (part : Part) : part.text.Nested := by
  cases part with
  | hole => exact Text.nested_of_plain nofun
  | bound label space target default? =>
    exact label.nested.append ((nested_of_blank space.2).append
      (target.nested.append (nested_defaultText default?)))

theorem Parts.nested (parts : Parts) : parts.text.Nested := by
  cases parts with
  | last before part behind =>
    exact (nested_of_blank before.2).append (part.nested.append (nested_of_blank behind.2))
  | next before part behind more =>
    exact (nested_of_blank before.2).append (part.nested.append
      ((nested_of_blank behind.2).append ((nested_singleton rfl).append more.nested)))

end

/-- A pattern binds the names of its targets, at their offsets and from left to right, and its closing
bracket is found. -/
theorem ofPattern_bindings (brackets : Brackets) (inside : Parts) (before rest : Text) :
    Binding.ofPattern (before.length + 1) inside.text = inside.bindings (before.length + 1) ∧
      Binding.declarator? ⟨before, (Target.pattern brackets inside).text ++ rest⟩ =
        some ((Target.pattern brackets inside).bindings before.length,
          ⟨(Target.pattern brackets inside).text.reverse ++ before, rest⟩) := by
  have hinside : ∀ offset, Binding.ofPattern offset inside.text = inside.bindings offset := by
    intro offset
    obtain ⟨state, -, hread⟩ := @Parts.read 0 offset [] inside ends_nil
    rw [List.append_nil] at hread
    rw [Binding.ofPattern, hread, patternFrom, List.append_nil]
  refine ⟨hinside _, ?_⟩
  have hclosing := Bracket.closing?_brackets inside.nested brackets.mem_roundPairs rest
  have hopener : (brackets.opener == '{' || brackets.opener == '[') = true := by cases brackets <;> rfl
  have hcloser : (if brackets.opener == '{' then '}' else ']') = brackets.closer := by
    cases brackets <;> rfl
  have hspace : isSpace brackets.opener = false := by cases brackets <;> decide
  have hskip : Cursor.skipSpaces ⟨before, brackets.opener :: (inside.text ++ brackets.closer :: rest)⟩ =
      ⟨before, brackets.opener :: (inside.text ++ brackets.closer :: rest)⟩ := by
    simp [Cursor.skipSpaces, Cursor.skipWhile, hspace]
  have htext : (Target.pattern brackets inside).text ++ rest =
      brackets.opener :: (inside.text ++ brackets.closer :: rest) := by simp [Target.text]
  have hstop : Cursor.advance ⟨before, brackets.opener :: (inside.text ++ brackets.closer :: rest)⟩
      (inside.text.length + 1 + 1) =
        ⟨(Target.pattern brackets inside).text.reverse ++ before, rest⟩ := by
    rw [← htext, Cursor.advance, List.take_left' (by simp [Target.text]),
      List.drop_left' (by simp [Target.text])]
  unfold Binding.declarator?
  rw [htext, hskip]
  simp only [hopener, if_true, hcloser, hclosing, hstop, Nat.add_sub_cancel, List.take_left, hinside,
    Cursor.offset, Target.bindings]

/-- A key, a hole, the rest, and default values with brackets and an arrow. -/
def sample : Parts :=
  let tight : Space := ⟨[], List.forall_mem_nil _⟩
  let gap : Space := ⟨[' '], List.forall_mem_singleton.mpr rfl⟩
  let list : Parts :=
    .next tight (.bound .bare tight (.name ⟨"b", by decide +kernel⟩) none) tight <|
      .next gap .hole tight <|
        .last gap (.bound .rest tight (.name ⟨"c", by decide +kernel⟩) none) tight
  .next gap
    (.bound .bare tight (.name ⟨"x", by decide +kernel⟩)
      (some (gap, ⟨" f(p, q)", by decide +kernel⟩)))
    tight <|
    .last gap
      (.bound (.key ⟨"key", by decide +kernel⟩ tight) gap (.pattern .square list)
        (some (gap, ⟨" r => [r, 2]", by decide +kernel⟩)))
      gap

example : (Target.pattern .curly sample).text =
      "\x7b x = f(p, q), key: [b, , ...c] = r => [r, 2] \x7d" ∧
    sample.bindings 1 = [⟨"x", 2⟩, ⟨"b", 21⟩, ⟨"c", 29⟩] := ⟨rfl, rfl⟩

end Destructuring

end ComponentAudit
