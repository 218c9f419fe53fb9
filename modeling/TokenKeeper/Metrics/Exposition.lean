import TokenKeeper.Metrics.Registry

/-!
# Exposition

A registry as text for a collector, one sample a line: families in the order of their names,
labels in the order of theirs, the samples of a family in the order of their label values. A
family without samples does not show. A histogram shows a sample for each bucket, the sum and the
count.
-/

namespace TokenKeeper.Exposition

/-- One character of a label value. -/
def escapeChar (c : Char) : List Char :=
  if c = '\\' then ['\\', '\\']
  else if c = '"' then ['\\', '"']
  else if c = '\n' then ['\\', 'n']
  else [c]

/-- A label with its value between quotes. -/
def labelText (label : String × String) : String :=
  label.1 ++ "=\"" ++ String.ofList (label.2.toList.flatMap escapeChar) ++ "\""

/-- Labels in braces, or nothing if there are none. -/
def labelsText (labels : List (String × String)) : String :=
  if labels = [] then "" else "\x7b" ++ ",".intercalate (labels.map labelText) ++ "\x7d"

/-- One sample. -/
structure Sample where
  /-- The name of the family, with what it adds to tell a histogram's samples apart. -/
  name : String
  labels : List (String × String)
  value : String
deriving DecidableEq, Repr

/-- The line of a sample. -/
def Sample.line (s : Sample) : String :=
  s.name ++ labelsText s.labels ++ " " ++ s.value

/-- A whole number as the text of its nearest floating-point number. -/
def wholeText (n : Int) : String :=
  (Binary64.ofInt n).toText

/-- Labels in the order of their names. -/
def sortedLabels (f : Family) (values : List String) : List (String × String) :=
  (f.labels.zip values).mergeSort fun a b => a.1 ≤ b.1

/-- Whether one list of labels goes before another: by the first value that differs. -/
def labelsLe : List (String × String) → List (String × String) → Bool
  | [], _ => true
  | _ :: _, [] => false
  | (_, a) :: as, (_, b) :: bs => if a = b then labelsLe as bs else a ≤ b

/-- The labelled values of a family in the order in which they are shown. -/
def sortedSeries {α : Type} (f : Family) (s : Series α) : List (List (String × String) × α) :=
  (s.map fun (values, v) => (sortedLabels f values, v)).mergeSort fun a b => labelsLe a.1 b.1

/-- The samples of a family of plain numbers. -/
def numberSamples {α : Type} (toText : α → String) (f : Family) (s : Series α) : List Sample :=
  (sortedSeries f s).map fun (labels, v) => ⟨f.name, labels, toText v⟩

/-- The samples of one histogram. -/
def histogramSamples (f : Family) (labels : List (String × String)) (h : Histogram) :
    List Sample :=
  let bucket (le : String) (n : Nat) : Sample :=
    ⟨f.name ++ "_bucket", labels ++ [("le", le)], wholeText n⟩
  (Histogram.bounds.map fun (b : Nat) =>
    let bound := Binary64.ofDecimal (b : Nat) 3
    bucket bound.toText (h.countUpTo bound)) ++
  [ bucket "+Inf" h.count,
    ⟨f.name ++ "_sum", labels, h.sum.toText⟩,
    ⟨f.name ++ "_count", labels, wholeText h.count⟩ ]

/-- The samples of a family of histograms. -/
def histogramsSamples (f : Family) (s : Histograms) : List Sample :=
  (sortedSeries f s).flatMap fun (labels, h) => histogramSamples f labels h

/-- All families with their samples, in the order of their names. -/
def families (r : Registry) : List (Family × List Sample) :=
  let counters (f : Family) (s : Counters) := (f, numberSamples (fun n => wholeText (n : Nat)) f s)
  let all :=
    [ counters Registry.clientRequestsFamily r.clientRequests,
      (Registry.clientDurationsFamily,
        histogramsSamples Registry.clientDurationsFamily r.clientDurations),
      counters Registry.httpRequestsFamily r.httpRequests,
      (Registry.httpDurationsFamily,
        histogramsSamples Registry.httpDurationsFamily r.httpDurations),
      counters Registry.refreshesFamily r.refreshes,
      counters Registry.refreshFailuresFamily r.refreshFailures,
      (Registry.expiriesFamily, numberSamples wholeText Registry.expiriesFamily r.expiries) ] ++
    (Registry.processFamilies r.process).map fun (f, v) => (f, [⟨f.name, [], wholeText v⟩])
  (all.filter (·.2 ≠ [])).mergeSort fun a b => a.1.name ≤ b.1.name

/-- The lines of a family. -/
def familyLines (f : Family) (samples : List Sample) : List String :=
  ["# HELP " ++ f.name ++ " " ++ f.help, "# TYPE " ++ f.name ++ " " ++ f.kind.text] ++
    samples.map Sample.line

/-- The whole text. -/
def text (r : Registry) : String :=
  String.join ((families r).flatMap fun (f, samples) => (familyLines f samples).map (· ++ "\n"))

/-- The lines of the samples whose name satisfies `p`. -/
def sampleLines (r : Registry) (p : String → Bool) : List String :=
  (((families r).flatMap (·.2)).filter (p ·.name)).map Sample.line

end TokenKeeper.Exposition
