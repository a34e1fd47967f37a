import ComponentAudit.Proofs.Json.RoundTrip
import ComponentAudit.Proofs.Text.Split
import ComponentAudit.Report.CommitReport

/-! # Records read back

The reader goes through a text character by character. A comma ends a field and a line feed a record,
unless they stand between quotes; a quote between quotes ends the quoted part, unless another one
follows. What is written is read back: a field without quotes holds nothing that ends it, and inside
quotes every quote is followed by its double. -/

namespace ComponentAudit

namespace Csv

/-! ## The reader -/

/-- Where a reader stands in a field. -/
inductive Place where
  /-- In front of its first character. -/
  | front
  | plain
  | quoted
  /-- Behind a quote that ends the quoted part, or is the first of a doubled one. -/
  | closed
  deriving DecidableEq

/-- What a reader has read: whole records, whole fields of the next record, and part of the next
field. -/
structure ReaderState where
  records : List (List Text) := []
  record : List Text := []
  field : Text := []
  place : Place := .front

namespace ReaderState

/-- Reads a character outside quotes. -/
def outside (state : ReaderState) (c : Char) : ReaderState :=
  if c == ',' then
    { records := state.records, record := state.record ++ [state.field] }
  else if c == '\n' then { records := state.records ++ [state.record ++ [state.field]] }
  else { state with field := state.field ++ [c], place := .plain }

/-- Reads a character. -/
def step (state : ReaderState) (c : Char) : ReaderState :=
  match state.place with
  | .front => if c == '"' then { state with place := .quoted } else state.outside c
  | .plain => state.outside c
  | .quoted =>
    if c == '"' then { state with place := .closed } else { state with field := state.field ++ [c] }
  | .closed =>
    if c == '"' then { state with field := state.field ++ ['"'], place := .quoted }
    else state.outside c

/-- Reads a text. -/
def run (state : ReaderState) (t : Text) : ReaderState := t.foldl step state

/-- What has been read at the end of a text. A last record needs no line feed; a text that ends inside
quotes stands for no records. -/
def finish (state : ReaderState) : Option (List (List Text)) :=
  match state.place with
  | .quoted => none
  | place =>
    if place == .front && state.record.isEmpty then some state.records
    else some (state.records ++ [state.record ++ [state.field]])

end ReaderState

/-- The records that a text stands for. -/
def read (t : Text) : Option (List (List Text)) := (ReaderState.run {} t).finish

namespace ReaderState

variable (state : ReaderState)

theorem run_append (s t : Text) : state.run (s ++ t) = (state.run s).run t := List.foldl_append

theorem run_cons (c : Char) (t : Text) : state.run (c :: t) = (state.step c).run t := rfl

/-! ## One field -/

theorem step_of_not_quoted {c : Char} (hplace : state.place ≠ .quoted) (hc : c ≠ '"') :
    state.step c = state.outside c := by
  unfold step
  split
  · simp [hc]
  · rfl
  · rename_i h
    exact absurd h hplace
  · simp [hc]

/-- Outside quotes, characters that end nothing join the field. -/
theorem run_plain {t : Text} (h : ∀ c ∈ t, c ≠ ',' ∧ c ≠ '"' ∧ c ≠ '\n')
    (hplace : state.place ≠ .quoted) :
    ∃ place, place ≠ .quoted ∧ state.run t = { state with field := state.field ++ t, place } := by
  induction t generalizing state with
  | nil => exact ⟨state.place, hplace, by simp [run]⟩
  | cons c t ih =>
    obtain ⟨hcomma, hquote, hfeed⟩ := h c List.mem_cons_self
    have hstep : state.step c = { state with field := state.field ++ [c], place := .plain } := by
      rw [step_of_not_quoted state hplace hquote]
      simp [outside, hcomma, hfeed]
    obtain ⟨place, hne, hrun⟩ := ih { state with field := state.field ++ [c], place := .plain }
      (fun d hd => h d (List.mem_cons_of_mem c hd)) (by simp)
    refine ⟨place, hne, ?_⟩
    rw [run_cons, hstep, hrun]
    simp

/-- Inside quotes, a character joins the field, and a quote does so if it is doubled. -/
theorem run_doubled (c : Char) (hplace : state.place = .quoted) :
    state.run (if c == '"' then ['"', '"'] else [c]) =
      { state with field := state.field ++ [c] } := by
  by_cases hc : c = '"'
  · simp [run, step, hplace, hc]
  · simp [run, step, hplace, hc]

theorem run_quoted (t : Text) (hplace : state.place = .quoted) :
    state.run (t.flatMap fun c => if c == '"' then ['"', '"'] else [c]) =
      { state with field := state.field ++ t } := by
  induction t generalizing state with
  | nil => simp [run]
  | cons c t ih =>
    rw [List.flatMap_cons, run_append, run_doubled state c hplace, ih]
    · simp
    · exact hplace

/-- A written field is read up to what ends it. -/
theorem run_writeField (field : Text) (hfield : state.field = []) (hplace : state.place = .front) :
    ∃ place, place ≠ .quoted ∧ state.run (writeField field) = { state with field, place } := by
  unfold writeField
  split
  · refine ⟨.closed, by decide, ?_⟩
    have hopen : state.step '"' = { state with place := .quoted } := by simp [step, hplace]
    rw [quoteField, List.cons_append, run_cons, hopen, run_append, run_quoted _ field rfl, hfield]
    simp [run, step]
  · rename_i hplain
    have hclear : ∀ c ∈ field, c ≠ ',' ∧ c ≠ '"' ∧ c ≠ '\n' := by
      intro c hc
      simp only [needsQuotes, Bool.not_eq_true, List.any_eq_false, Bool.or_eq_false_iff,
        beq_eq_false_iff_ne, and_assoc] at hplain
      exact hplain c hc
    have hrun := run_plain state hclear (by simp [hplace])
    rwa [hfield, List.nil_append] at hrun

theorem step_comma (hplace : state.place ≠ .quoted) :
    state.step ',' = { records := state.records, record := state.record ++ [state.field] } := by
  rw [step_of_not_quoted state hplace (by decide)]
  rfl

theorem step_lineFeed (hplace : state.place ≠ .quoted) :
    state.step '\n' = { records := state.records ++ [state.record ++ [state.field]] } := by
  rw [step_of_not_quoted state hplace (by decide)]
  rfl

/-! ## Records -/

theorem run_fields {fields : List Text} (hne : fields ≠ []) (records : List (List Text))
    (record : List Text) :
    run { records, record } (Text.join "," (fields.map writeField) ++ ['\n']) =
      { records := records ++ [record ++ fields] } := by
  induction fields generalizing record with
  | nil => exact absurd rfl hne
  | cons field fields ih =>
    obtain ⟨place, hplace, hrun⟩ := run_writeField { records, record } field rfl rfl
    cases fields with
    | nil =>
      rw [List.map_singleton, Text.join_singleton, run_append, hrun, run_cons,
        step_lineFeed _ hplace]
      rfl
    | cons next fields =>
      rw [List.map_cons, List.map_cons, Text.join_cons_cons, ← List.map_cons, List.append_assoc,
        List.append_assoc, run_append, hrun]
      change run _ (',' :: _) = _
      rw [run_cons, step_comma _ hplace]
      refine (ih (List.cons_ne_nil _ _) (record ++ [field])).trans ?_
      rw [List.append_assoc]
      rfl

theorem run_writeRecord {record : List Text} (hne : record ≠ []) (records : List (List Text)) :
    run { records } (writeRecord record) = { records := records ++ [record] } := by
  unfold writeRecord
  split
  · rename_i hempty
    rw [eq_of_beq hempty]
    rfl
  · exact run_fields hne records []

theorem run_writeRecords {table : List (List Text)} (h : ∀ record ∈ table, record ≠ [])
    (records : List (List Text)) :
    run { records } (table.flatMap writeRecord) = { records := records ++ table } := by
  induction table generalizing records with
  | nil => simp [run]
  | cons record table ih =>
    obtain ⟨hrecord, htable⟩ := List.forall_mem_cons.mp h
    rw [List.flatMap_cons, run_append, run_writeRecord hrecord, ih htable]
    simp

end ReaderState

/-- A header and records that each have a field are read back. -/
theorem read_write {header : List Text} {records : List (List Text)}
    (h : ∀ record ∈ header :: records, record ≠ []) :
    read (write header records) = some (header :: records) := by
  rw [read, write, ReaderState.run_writeRecords h]
  rfl

end Csv

/-! ## The records of reports -/

theorem Analysis.of_mem_csvRecords {analysis : Analysis} {record : List Text}
    (h : record ∈ analysis.csvRecords) :
    record.head? = some analysis.filePath ∧ record.length = 6 := by
  simp only [csvRecords, csvRecord, List.mem_append, List.mem_map, or_assoc] at h
  rcases h with ⟨_, -, rfl⟩ | ⟨_, -, rfl⟩ | ⟨_, -, rfl⟩ | ⟨_, -, rfl⟩ | ⟨_, -, rfl⟩ | ⟨_, -, rfl⟩
  all_goals exact ⟨rfl, rfl⟩

theorem Findings.of_mem_csvRecords {findings : Findings} {record : List Text}
    (h : record ∈ findings.csvRecords) :
    record.head? = some findings.filePath ∧ record.length = 7 := by
  simp only [csvRecords, csvRecord, List.mem_append, List.mem_map, or_assoc] at h
  rcases h with ⟨_, -, rfl⟩ | ⟨_, -, rfl⟩ | h | ⟨_, -, rfl⟩ | ⟨_, -, rfl⟩ | ⟨_, -, rfl⟩ | ⟨_, -, rfl⟩
  case inr.inr.inl =>
    split at h
    · rw [List.mem_singleton.mp h]
      exact ⟨rfl, rfl⟩
    · cases h
  all_goals exact ⟨rfl, rfl⟩

theorem CommitAnalysis.length_of_mem_csvRecords {analysis : CommitAnalysis} {record : List Text}
    (h : record ∈ analysis.csvRecords) : record.length = 7 := by
  obtain ⟨row, hrow, rfl⟩ := List.mem_map.mp h
  obtain ⟨file, -, hfile⟩ := List.mem_flatMap.mp hrow
  rw [List.length_append, (Analysis.of_mem_csvRecords hfile).2]
  rfl

theorem CommitComparison.length_of_mem_csvRecords {comparison : CommitComparison}
    {record : List Text} (h : record ∈ comparison.csvRecords) : record.length = 6 := by
  obtain ⟨_, -, rfl⟩ := List.mem_map.mp h
  rfl

/-- A text that tells a reader of records exactly a header and the records below it, at least six
fields wide and all of one width. -/
structure Csv.Conveys (t : Text) (header : List Text) (records : List (List Text)) : Prop where
  reads : Csv.read t = some (header :: records)
  wide : 6 ≤ header.length
  even : ∀ record ∈ records, record.length = header.length

theorem Csv.conveys_write {header : List Text} {records : List (List Text)} (hwide : 6 ≤ header.length)
    (heven : ∀ record ∈ records, record.length = header.length) :
    Conveys (write header records) header records := by
  refine ⟨read_write (List.forall_mem_cons.mpr ⟨?_, fun record hrecord => ?_⟩), hwide, heven⟩
  · exact List.ne_nil_of_length_pos (by omega)
  · have hlength := heven record hrecord
    exact List.ne_nil_of_length_pos (by omega)

theorem Analysis.conveys_csvRecords (analyses : List Analysis) :
    Csv.Conveys (Csv.write csvHeader (analyses.flatMap csvRecords)) csvHeader
      (analyses.flatMap csvRecords) := by
  refine Csv.conveys_write (by decide) fun record hrecord => ?_
  obtain ⟨analysis, -, hmem⟩ := List.mem_flatMap.mp hrecord
  exact (of_mem_csvRecords hmem).2

theorem Findings.conveys_csvRecords (shown : List Findings) :
    Csv.Conveys (Csv.write csvHeader (shown.flatMap csvRecords)) csvHeader
      (shown.flatMap csvRecords) := by
  refine Csv.conveys_write (by decide) fun record hrecord => ?_
  obtain ⟨findings, -, hmem⟩ := List.mem_flatMap.mp hrecord
  exact (of_mem_csvRecords hmem).2

/-- Records of any fields are read back, and so are those of every report: on an analysis, on findings,
on several files, on a revision and on the change between two. -/
theorem render_csv_conveys :
    (∀ (header : List Text) (records : List (List Text)), 6 ≤ header.length →
      (∀ record ∈ records, 6 ≤ record.length) →
      Csv.read (Csv.write header records) = some (header :: records)) ∧
    (∀ n : Int, Json.ofText? (Text.ofInt n) = some (.int n)) ∧
    (∀ analysis : Analysis,
      Csv.Conveys (analysis.render .csv) Analysis.csvHeader analysis.csvRecords) ∧
    (∀ (findings : Findings) (mode : FilterMode), (findings.restrict mode).isEmpty = false →
      Csv.Conveys (findings.render mode .csv) Findings.csvHeader
        (findings.restrict mode).csvRecords) ∧
    (∀ (rules : Suppression) (analyses : List Analysis),
      Csv.Conveys (renderScan rules .csv none analyses) Analysis.csvHeader
        ((withOpportunities rules analyses).flatMap Analysis.csvRecords)) ∧
    (∀ (rules : Suppression) (mode : FilterMode) (analyses : List Analysis),
      Csv.Conveys (renderScan rules .csv (some mode) analyses) Findings.csvHeader
        ((restrictedFindings rules mode analyses).flatMap Findings.csvRecords)) ∧
    (∀ analysis : CommitAnalysis,
      Csv.Conveys (analysis.render .csv) (Analysis.csvHeader ++ [("Commit" : Text)])
        analysis.csvRecords) ∧
    (∀ comparison : CommitComparison,
      Csv.Conveys (comparison.render .csv) CommitComparison.csvHeader comparison.csvRecords) := by
  refine ⟨fun header records hheader hrecords => ?_, fun n => Json.ofText?_toText (.int n),
    fun analysis => ?_, fun findings mode hshown => ?_,
    fun rules analyses => Analysis.conveys_csvRecords _,
    fun rules mode analyses => Findings.conveys_csvRecords _, fun analysis => ?_, fun comparison => ?_⟩
  · refine Csv.read_write (List.forall_mem_cons.mpr ⟨?_, fun record hrecord => ?_⟩)
    · exact List.ne_nil_of_length_pos (by omega)
    · have hlength := hrecords record hrecord
      exact List.ne_nil_of_length_pos (by omega)
  · exact Csv.conveys_write (by decide) fun record hrecord => (Analysis.of_mem_csvRecords hrecord).2
  · have hrender : findings.render mode .csv =
        Csv.write Findings.csvHeader (findings.restrict mode).csvRecords := by
      simp [Findings.render, hshown]
    rw [hrender]
    exact Csv.conveys_write (by decide) fun record hrecord => (Findings.of_mem_csvRecords hrecord).2
  · exact Csv.conveys_write (by decide) fun record hrecord =>
      CommitAnalysis.length_of_mem_csvRecords hrecord
  · exact Csv.conveys_write (by decide) fun record hrecord =>
      CommitComparison.length_of_mem_csvRecords hrecord

/-- A record with a separator, quotes, a line feed, an empty field and a negative number. -/
def awkwardRecord : List Text := ["a,b", "\"", "\"c\"\nd", "", Text.ofInt (-12), "\r"]

theorem render_csv_conveys_awkwardRecord :
    6 ≤ Analysis.csvHeader.length ∧ (∀ record ∈ [awkwardRecord], 6 ≤ record.length) ∧
    Csv.read (Csv.write Analysis.csvHeader [awkwardRecord]) =
      some [Analysis.csvHeader, awkwardRecord] ∧
    ((Findings.ofAnalysis {} (analyze [] "a,\"b\".svelte")).restrict .all).isEmpty = false ∧
    Csv.Conveys ((Findings.ofAnalysis {} (analyze [] "a,\"b\".svelte")).render .all .csv)
      Findings.csvHeader
      [["a,\"b\".svelte", "NoCSS", "", "", "", "", "No <style> blocks or CSS imports detected"]] := by
  have hwide : ∀ record ∈ [awkwardRecord], 6 ≤ record.length := by decide
  have hshown : ((Findings.ofAnalysis {} (analyze [] "a,\"b\".svelte")).restrict .all).isEmpty =
      false := by decide +kernel
  exact ⟨by decide, hwide, render_csv_conveys.1 _ _ (by decide) hwide, hshown,
    render_csv_conveys.2.2.2.1 _ .all hshown⟩

end ComponentAudit
