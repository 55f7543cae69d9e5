import Scriptlet.Text.Capitalize

/-!
# Diagnostics

A diagnostic is one report of a stage. `Diagnostics` keeps the reports of all stages in the order in
which they are made. Each is also written at once, to a stream if one is given and else to standard
error. `g ++ ds` is `g` after the reports `ds`.
-/

namespace Scriptlet

/-- One report of a stage, with the line it is about if there is one. -/
structure Diagnostic where
  stage : String
  message : String
  line : Option Int := none
  deriving DecidableEq, Repr

namespace Diagnostic

/-- The text of a report, led by the capitalised stage. -/
def text (d : Diagnostic) : String :=
  match d.line with
  | none => Text.capitalize d.stage ++ " error: " ++ d.message
  | some n => Text.capitalize d.stage ++ " error (line " ++ toString n ++ "): " ++ d.message

/-- What is written of a report: its text, on a line of its own. -/
def written (d : Diagnostic) : String := d.text ++ "\n"

/-- The stages of a program run. -/
def lexing : String := "lexing"
@[inherit_doc lexing] def parsing : String := "parsing"
@[inherit_doc lexing] def evaluation : String := "evaluation"

end Diagnostic

/-- Reports, and what has been written of them. -/
structure Diagnostics where
  /-- Reports, earliest first. -/
  records : List Diagnostic := []
  /-- What has been written to the stream, if one is given. -/
  stream : Option String := none
  /-- What has been written to standard error. -/
  stderr : String := ""
  deriving DecidableEq, Repr

namespace Diagnostics

/-- Writes to the stream if one is given, and else to standard error. -/
def write (g : Diagnostics) (text : String) : Diagnostics :=
  match g.stream with
  | some before => { g with stream := some (before ++ text) }
  | none => { g with stderr := g.stderr ++ text }

/-- Makes a report and writes it. -/
def report (g : Diagnostics) (d : Diagnostic) : Diagnostics :=
  { g.write d.written with records := g.records ++ [d] }

/-- Makes reports one after another. -/
instance : HAppend Diagnostics (List Diagnostic) Diagnostics where
  hAppend g ds := ds.foldl report g

/-- Whether there is a report, or one of the given stage. -/
def hasErrors (g : Diagnostics) (stage : Option String) : Bool :=
  match stage with
  | none => !g.records.isEmpty
  | some s => g.records.any fun d => d.stage == s

/-- The texts of the reports. -/
def messages (g : Diagnostics) : List String := g.records.map Diagnostic.text

@[simp] theorem append_nil (g : Diagnostics) : g ++ ([] : List Diagnostic) = g := rfl

theorem append_singleton (g : Diagnostics) (d : Diagnostic) : g ++ [d] = g.report d := rfl

@[simp] theorem records_report (g : Diagnostics) (d : Diagnostic) :
    (g.report d).records = g.records ++ [d] := rfl

theorem append_append (g : Diagnostics) (ds es : List Diagnostic) :
    g ++ (ds ++ es) = g ++ ds ++ es :=
  List.foldl_append

@[simp] theorem records_append (g : Diagnostics) (ds : List Diagnostic) :
    (g ++ ds).records = g.records ++ ds := by
  induction ds generalizing g with
  | nil => exact (List.append_nil _).symm
  | cons d ds ih =>
    calc (g ++ d :: ds).records = (g.report d ++ ds).records := rfl
      _ = g.records ++ [d] ++ ds := ih (g.report d)
      _ = g.records ++ d :: ds := List.append_assoc ..

end Diagnostics

end Scriptlet
