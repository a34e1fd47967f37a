import ComponentAudit.Proofs.Json.RoundTrip
import ComponentAudit.Proofs.Report.Encode
import ComponentAudit.Report.FindingReport

/-! # Reports as JSON lose nothing

What a reader of JSON gets from a report is the value that the report renders, and from the report on
an analysis it gets the analysis. -/

namespace ComponentAudit

/-- A text that tells a reader of JSON exactly a value: it is ASCII, the value is read back from it,
and no member of an object hides another. -/
structure Json.Conveys (t : Text) (value : Json) : Prop where
  reads : Json.ofText? t = some value
  unambiguous : value.Unambiguous
  ascii : t.IsAscii

theorem Json.conveys_toText {value : Json} (h : value.Unambiguous) : Conveys value.toText value :=
  ⟨ofText?_toText value, h, isAscii_render value 0⟩

open Json

theorem Analysis.render_json_injective {a b : Analysis} (h : a.render .json = b.render .json) :
    a = b := by
  have hread := congrArg ofText? h
  simp only [render, ofText?_toText, Option.some.injEq] at hread
  exact toJson_inj.mp hread

namespace Findings

variable (findings : Findings) (mode : FilterMode)

theorem render_eq_nil_of_isEmpty (format : OutputFormat)
    (h : (findings.restrict mode).isEmpty = true) : findings.render mode format = [] := by
  simp [render, h]

theorem render_json_of_not_isEmpty (h : (findings.restrict mode).isEmpty = false) :
    findings.render mode .json = (findings.restrict mode).toJson.toText := by
  simp [render, h]

theorem render_json_ne_nil_iff :
    findings.render mode .json ≠ [] ↔ (findings.restrict mode).isEmpty = false := by
  constructor
  · intro hne
    rw [← Bool.not_eq_true]
    exact fun hempty => hne (findings.render_eq_nil_of_isEmpty mode .json hempty)
  · intro hshown
    rw [render_json_of_not_isEmpty findings mode hshown]
    exact List.ne_nil_of_length_pos (length_render_pos 0 _)

end Findings

/-- The report on an analysis conveys all of it, and the report on its findings conveys what the mode
shows of them, if that is anything. -/
theorem render_json_conveys (passes : List Pass) (source path : Text) (options : Options) :
    let analysis := analyzeWith passes source path options
    Conveys (analysis.render .json) analysis.toJson ∧
    (∀ other : Analysis, other.render .json = analysis.render .json → other = analysis) ∧
    ∀ (rules : Suppression) (mode : FilterMode),
      let findings := Findings.ofAnalysis rules analysis
      (findings.render mode .json ≠ [] ↔ (findings.restrict mode).isEmpty = false) ∧
      (findings.render mode .json ≠ [] →
        Conveys (findings.render mode .json) (findings.restrict mode).toJson) := by
  intro analysis
  have hnames := Analysis.namesOnce_analyzeWith passes source path options
  refine ⟨conveys_toText hnames.unambiguous_toJson,
    fun other => Analysis.render_json_injective, ?_⟩
  intro rules mode findings
  have hshown := findings.render_json_ne_nil_iff mode
  refine ⟨hshown, fun hne => ?_⟩
  rw [findings.render_json_of_not_isEmpty mode (hshown.mp hne)]
  exact conveys_toText (Findings.unambiguous_toJson _)

/-- A script with a quote, a line feed and a character of two units. -/
def escapedScript : Text := "<script>\nlet a = '\\\"😀'\n</script>"

theorem render_json_conveys_escapedScript :
    let analysis := analyze escapedScript "café.svelte"
    let findings := Findings.ofAnalysis {} analysis
    Conveys (analysis.render .json) analysis.toJson ∧
      findings.render .deadCode .json ≠ [] ∧
      Conveys (findings.render .deadCode .json) (findings.restrict .deadCode).toJson := by
  intro analysis findings
  have hreports := render_json_conveys Pass.all escapedScript "café.svelte" {}
  have hshown : findings.render .deadCode .json ≠ [] := by decide +kernel
  exact ⟨hreports.1, hshown, (hreports.2.2 {} .deadCode).2 hshown⟩

end ComponentAudit
