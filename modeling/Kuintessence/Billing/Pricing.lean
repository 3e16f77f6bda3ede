import Kuintessence.Lib.Assoc
import Kuintessence.Lib.Outcome

namespace Kuintessence.Billing

structure TaskUsedResource where
  cpu : UInt64
  avgMemory : UInt64
  maxMemory : UInt64
  storage : UInt64
  wallTime : UInt64
  cpuTime : UInt64
  node : UInt64
  startTime : Int64
  endTime : Int64
  deriving DecidableEq, Repr

structure Decimal where
  mantissa : Int
  scale : Nat
  deriving DecidableEq, Repr

namespace Decimal

def new (num : Int64) (scale : Nat) : Decimal := ⟨num.toInt, scale⟩

def text (d : Decimal) : String :=
  let digits := toString d.mantissa.natAbs
  let padded := String.ofList (.replicate (d.scale + 1 - digits.length) '0') ++ digits
  let whole := String.ofList (padded.toList.take (padded.length - d.scale))
  let fraction := String.ofList (padded.toList.drop (padded.length - d.scale))
  (if d.mantissa < 0 then "-" else "") ++ whole ++ (if d.scale = 0 then "" else "." ++ fraction)

end Decimal

-- A `HashMap` in the order in which it is iterated.
structure PriceMap where
  entries : List (String × String)
  nodup : (Assoc.keys entries).Nodup
  deriving DecidableEq, Repr

structure ClusterIdSettings where
  cpu : Decimal
  memory : Decimal
  storage : Decimal
  cpuTime : Decimal
  wallTime : Decimal
  formula : PriceMap
  deriving DecidableEq, Repr

structure Floats (F : Type) where
  ofU64 : UInt64 → F
  ofMantissa : Int → F
  toI64 : F → Int64
  text : F → String

structure Evaluator (F : Type) (mentions : String → List String) where
  eval : String → (String → Option F) → Outcome String F
  congr : ∀ txt ρ ρ', (∀ x ∈ mentions txt, ρ x = ρ' x) → eval txt ρ = eval txt ρ'

def stripPrefix (start s : String) : Option String :=
  if start.toList <+: s.toList then some (String.ofList (s.toList.drop start.length)) else none

section Calculation

variable {F : Type} {mentions : String → List String} (fl : Floats F) (ev : Evaluator F mentions)

def contextMap (meter : TaskUsedResource) (settings : ClusterIdSettings) : List (String × F) :=
  [("n_cpu", fl.ofU64 meter.cpu),
    ("n_memory", fl.ofU64 meter.maxMemory),
    ("n_storage", fl.ofU64 meter.storage),
    ("n_cpu_time", fl.ofU64 meter.cpuTime),
    ("n_wall_time", fl.ofU64 meter.wallTime),
    ("u_cpu", fl.ofMantissa settings.cpu.mantissa),
    ("u_memory", fl.ofMantissa settings.memory.mantissa),
    ("u_storage", fl.ofMantissa settings.storage.mantissa),
    ("u_cpu_time", fl.ofMantissa settings.cpuTime.mantissa),
    ("u_wall_time", fl.ofMantissa settings.wallTime.mantissa)]

def priceText (var txt : String) (result nVar uVar : F) : String :=
  let uVar := (Decimal.new (fl.toI64 uVar) 10).text
  let valueTxt := (txt.replace ("u_" ++ var) ("u_" ++ var ++ ": (" ++ uVar ++ ")")).replace
    ("n_" ++ var) ("n_" ++ var ++ ": (" ++ fl.text nVar ++ ")")
  valueTxt ++ " = " ++ (Decimal.new (fl.toI64 result) 10).text

def evalPrice (context : List (String × F)) (arg txt : String) :
    Outcome String (List (String × F) × String) := do
  let result ← ev.eval txt (Assoc.get context)
  let context := Assoc.insert context arg result
  let var ← .okOr "prefix error: not start with 'p_'" (stripPrefix "p_" arg)
  let nVar ← .okOr ("No n_" ++ var ++ " context") (Assoc.get context ("n_" ++ var))
  let uVar ← .okOr ("No u_" ++ var ++ " context") (Assoc.get context ("u_" ++ var))
  pure (context, priceText fl var txt result nVar uVar)

def evalPrices (context : List (String × F)) :
    List (String × String) → Outcome String (List (String × F) × List (String × String))
  | [] => pure (context, [])
  | (arg, txt) :: prices =>
    if arg = "p_node" then do
      let (context, texts) ← evalPrices context prices
      pure (context, (arg, txt) :: texts)
    else do
      let (context, txt) ← evalPrice fl ev context arg txt
      let (context, texts) ← evalPrices context prices
      pure (context, (arg, txt) :: texts)

-- The price of the node and the formula with the values in it.
def calculate (meter : TaskUsedResource) (settings : ClusterIdSettings) :
    Outcome String (Decimal × List (String × String)) := do
  let (context, texts) ← evalPrices fl ev (contextMap fl meter settings) settings.formula.entries
  let pNodeTxt ← .okOr "No p_node in formula" (Assoc.get texts "p_node")
  let pNode ← ev.eval pNodeTxt (Assoc.get context)
  let pNode := Decimal.new (fl.toI64 pNode) 10
  pure (pNode, Assoc.insert texts "p_node" (pNodeTxt ++ " = " ++ pNode.text))

def price? (meter : TaskUsedResource) (settings : ClusterIdSettings) : Option Decimal :=
  (calculate fl ev meter settings).toOption.map Prod.fst

end Calculation

end Kuintessence.Billing
