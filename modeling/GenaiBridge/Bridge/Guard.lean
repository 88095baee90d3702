/-
The governance guard between a source and the emitter.

A sample or a log record passes only if none of its keys is content, all of its
label keys are allow-listed, and its label set fits the cardinality budget of its
series.  The budget is the one piece of state: the label sets each series has been
let through with.
-/
import GenaiBridge.Bridge.Model
import Mathlib.Data.Finset.Card
import Mathlib.Logic.Function.Basic

namespace GenaiBridge

/-- `AbsoluteNeverDenyKeys`: the floor of the content denylist. -/
def absoluteNeverDenyKeys : List String :=
  ["gen_ai.prompt", "gen_ai.completion", "gen_ai.input.messages", "gen_ai.output.messages",
    "gen_ai.system_instructions", "input.value", "output.value",
    "request", "response", "inputs", "outputs", "messages",
    "inputs_preview", "outputs_preview",
    "metadata", "portkeyHeaders"]

/-- `genAIContentPrefixes`: the namespaces whose flattened keys are content too. -/
def genAIContentPrefixes : List String :=
  ["gen_ai.prompt", "gen_ai.completion",
    "gen_ai.input.messages", "gen_ai.output.messages", "gen_ai.system_instructions"]

/-- `IsContentFloorKey`. -/
def isContentFloorKey (k : String) : Bool :=
  absoluteNeverDenyKeys.contains k || genAIContentPrefixes.any fun p => p.toList.isPrefixOf k.toList

/-- `labelSigReplacer`: escape the escape character and the two delimiters. -/
def labelSigEscape (s : String) : String :=
  String.ofList <| s.toList.flatMap fun c => if c = '\\' ∨ c = '=' ∨ c = ';' then ['\\', c] else [c]

/-- `labelSig`: the signature of a label set. -/
def labelSig (m : Labels) : String :=
  String.join (m.entries.map fun e => labelSigEscape e.1 ++ "=" ++ labelSigEscape e.2 ++ ";")

/-- `source.Guard`. -/
structure Guard where
  allow : String → Bool
  deny : String → Bool
  budget : Int
  /-- The denylist of a logs loop that has one of its own. -/
  denyByLoop : String → Option (String → Bool)
  /-- The signatures each series has been let through with. -/
  seen : String → Finset String
  /-- The calls made to `OnNewLabelValue`. -/
  newLabelValues : List String

/-- `source.GuardConfig`, without the hook. -/
structure GuardConfig where
  allowLabelKeys : List String
  denyFieldKeys : List String
  denyFieldKeysByLoop : Lib.SortedMap String (List String)
  perSeriesBudget : Int

/-- `NewGuard`. -/
def newGuard (cfg : GuardConfig) : Guard where
  allow k := cfg.allowLabelKeys.contains k
  deny k := cfg.denyFieldKeys.contains k
  budget := cfg.perSeriesBudget
  denyByLoop loop := (cfg.denyFieldKeysByLoop.get? loop).map fun keys k => keys.contains k
  seen _ := ∅
  newLabelValues := []

namespace Guard

/-- The budget check of `ok` and `okLog`, under one series name. -/
def withinBudget (g : Guard) (series sig : String) : Bool × Guard :=
  if g.budget ≤ 0 then (true, g)
  else if sig ∈ g.seen series then (true, g)
  else if g.budget ≤ (g.seen series).card then
    (false, { g with newLabelValues := g.newLabelValues ++ [series] })
  else
    (true, { g with
      seen := Function.update g.seen series (insert sig (g.seen series))
      newLabelValues := g.newLabelValues ++ [series] })

variable {V : Type}

/-- `Guard.ok`. -/
def ok (g : Guard) (s : Sample V) : Bool × Guard :=
  if s.labels.keys.any fun k => g.deny k || isContentFloorKey k || !g.allow k then (false, g)
  else g.withinBudget s.name (labelSig s.labels)

/-- `Guard.okLog`. -/
def okLog (g : Guard) (loop : String) (lr : LogRecord) : Bool × Guard :=
  let deny := (g.denyByLoop loop).getD g.deny
  if (lr.indexedAttributes.keys ++ lr.recordAttributes.keys).any
      fun k => deny k || isContentFloorKey k then (false, g)
  else if lr.indexedAttributes.keys.any fun k => !g.allow k then (false, g)
  else g.withinBudget ("logs:" ++ loop) (labelSig lr.indexedAttributes)

/-- The loop of `Sanitize`: the samples kept, how many were dropped, the guard afterwards. -/
def sanitizeLoop (g : Guard) : List (Sample V) → List (Sample V) × Nat × Guard
  | [] => ([], 0, g)
  | s :: rest =>
    let r := sanitizeLoop (g.ok s).2 rest
    if (g.ok s).1 then (s :: r.1, r.2) else (r.1, r.2.1 + 1, r.2.2)

/-- `Guard.Sanitize`. -/
def sanitize (g : Guard) (b : Batch V) : Batch V × Nat × Guard :=
  let r := g.sanitizeLoop b.samples
  ({ b with samples := r.1 }, r.2)

/-- `Guard.SanitizeLogs`: the body is emptied before a record is checked. -/
def sanitizeLogs (g : Guard) (loop : String) : List LogRecord → List LogRecord × Nat × Guard
  | [] => ([], 0, g)
  | lr :: rest =>
    let lr := { lr with body := "" }
    let r := sanitizeLogs (g.okLog loop lr).2 loop rest
    if (g.okLog loop lr).1 then (lr :: r.1, r.2) else (r.1, r.2.1 + 1, r.2.2)

end Guard

end GenaiBridge
