import Kuintessence.Billing.Pricing
import Kuintessence.Lib.Assign

namespace Kuintessence.Billing

def resourceNames : List String := ["cpu", "memory", "storage", "cpu_time", "wall_time"]

-- The entries that are evaluated in the order of the map.
def priced (formula : List (String × String)) : List (String × String) :=
  formula.filter fun e => e.1 ≠ "p_node"

def Named (formula : List (String × String)) : Prop :=
  ∀ e ∈ priced formula, ∃ var ∈ resourceNames, e.1 = "p_" ++ var

instance (formula : List (String × String)) : Decidable (Named formula) :=
  inferInstanceAs (Decidable (∀ e ∈ priced formula, ∃ var ∈ resourceNames, e.1 = "p_" ++ var))

theorem stripPrefix_eq_some {start s rest : String} :
    stripPrefix start s = some rest ↔ s = start ++ rest := by
  rw [stripPrefix]
  constructor
  · intro h
    obtain ⟨hstart, hrest⟩ := Option.ite_none_right_eq_some.mp h
    cases hrest
    apply String.toList_injective
    rw [String.toList_append, String.toList_ofList]
    obtain ⟨cs, hcs⟩ := hstart
    rw [← hcs, ← String.length_toList, List.drop_left]
  · rintro rfl
    rw [String.toList_append, if_pos (List.prefix_append _ _), ← String.length_toList,
      List.drop_left, String.ofList_toList]

section Context

variable {F : Type} {mentions : String → List String} {fl : Floats F} {ev : Evaluator F mentions}
  {meter : TaskUsedResource} {settings : ClusterIdSettings} {context context' : List (String × F)}

theorem keys_contextMap : Assoc.keys (contextMap fl meter settings) =
    resourceNames.map ("n_" ++ ·) ++ resourceNames.map ("u_" ++ ·) := rfl

theorem append_ne {a b : String} (h : a.toList.head? ≠ b.toList.head?) (ha : a.toList ≠ [])
    (hb : b.toList ≠ []) (x y : String) : a ++ x ≠ b ++ y := by
  intro heq
  have hlist := congrArg String.toList heq
  rw [String.toList_append, String.toList_append] at hlist
  have hhead := congrArg List.head? hlist
  rw [List.head?_append_of_ne_nil _ ha, List.head?_append_of_ne_nil _ hb] at hhead
  exact h hhead

-- Beside the resources only prices have values.
structure Based (context : List (String × F)) : Prop where
  resources : ∀ var ∈ resourceNames, "n_" ++ var ∈ Assoc.keys context ∧
    "u_" ++ var ∈ Assoc.keys context
  others : ∀ x ∈ Assoc.keys context, (∃ var ∈ resourceNames, x = "n_" ++ var ∨ x = "u_" ++ var) ∨
    ∃ var, x = "p_" ++ var

theorem based_contextMap : Based (contextMap fl meter settings) where
  resources := by
    intro var hvar
    rw [keys_contextMap, List.mem_append, List.mem_append]
    exact ⟨.inl (List.mem_map_of_mem hvar), .inr (List.mem_map_of_mem hvar)⟩
  others := by
    intro x hx
    rw [keys_contextMap, List.mem_append, List.mem_map, List.mem_map] at hx
    obtain ⟨var, hvar, rfl⟩ | ⟨var, hvar, rfl⟩ := hx
    · exact .inl ⟨var, hvar, .inl rfl⟩
    · exact .inl ⟨var, hvar, .inr rfl⟩

theorem Based.insert (h : Based context) (var : String) (v : F) :
    Based (Assoc.insert context ("p_" ++ var) v) where
  resources := fun x hx =>
    ⟨Assoc.mem_keys_insert.mpr (.inl (h.resources x hx).1),
      Assoc.mem_keys_insert.mpr (.inl (h.resources x hx).2)⟩
  others := by
    intro x hx
    obtain hx | rfl := Assoc.mem_keys_insert.mp hx
    · exact h.others x hx
    · exact .inr ⟨var, rfl⟩

theorem Based.mem_resourceNames (h : Based context) {var : String}
    (hvar : "n_" ++ var ∈ Assoc.keys context) : var ∈ resourceNames := by
  obtain ⟨x, hx, heq | heq⟩ | ⟨x, heq⟩ := h.others _ hvar
  · rwa [(String.append_right_inj _).mp heq]
  · exact absurd heq (append_ne (by decide) (by decide) (by decide) _ _)
  · exact absurd heq (append_ne (by decide) (by decide) (by decide) _ _)

theorem evalPrice_eq_ok (h : Based context) {arg txt txt' : String} :
    evalPrice fl ev context arg txt = .ok (context', txt') →
      ∃ v, ∃ var ∈ resourceNames, ev.eval txt (Assoc.get context) = .ok v ∧ arg = "p_" ++ var ∧
        context' = Assoc.insert context arg v := by
  intro heval
  simp only [evalPrice, Outcome.bind_ok_iff, Outcome.okOr_ok_iff, Outcome.pure_eq] at heval
  obtain ⟨v, hv, var, hvar, n, hn, u, hu, heq⟩ := heval
  rw [stripPrefix_eq_some] at hvar
  subst hvar
  cases heq
  have hkey : "n_" ++ var ∈ Assoc.keys (Assoc.insert context ("p_" ++ var) v) :=
    Assoc.mem_keys_of_mem (Assoc.mem_of_get hn)
  exact ⟨v, var, (h.insert var v).mem_resourceNames hkey, hv, rfl, rfl⟩

theorem evalPrice_ok (h : Based context) {var txt : String} (hvar : var ∈ resourceNames) {v : F}
    (hv : ev.eval txt (Assoc.get context) = .ok v) : ∃ txt', evalPrice fl ev context ("p_" ++ var) txt
      = .ok (Assoc.insert context ("p_" ++ var) v, txt') := by
  have hbased := h.insert var v
  have hget {x : String} (hx : x ∈ Assoc.keys (Assoc.insert context ("p_" ++ var) v)) :
      ∃ y, Assoc.get (Assoc.insert context ("p_" ++ var) v) x = some y :=
    Option.ne_none_iff_exists'.mp fun hnone => Assoc.get_eq_none_iff.mp hnone hx
  obtain ⟨n, hn⟩ := hget (hbased.resources var hvar).1
  obtain ⟨u, hu⟩ := hget (hbased.resources var hvar).2
  refine ⟨priceText fl var txt v n u, ?_⟩
  rw [evalPrice, hv, Outcome.ok_bind, stripPrefix_eq_some.mpr rfl]
  simp only [Outcome.okOr, Outcome.ok_bind, hn, hu]
  rfl

def Evaluator.reader (ev : Evaluator F mentions) : Reader String String F mentions where
  eval txt ρ := (ev.eval txt ρ).toOption
  congr txt ρ ρ' h := by rw [ev.congr txt ρ ρ' h]

theorem reader_eval_eq_some {txt : String} {ρ : String → Option F} {v : F} :
    ev.reader.eval txt ρ = some v ↔ ev.eval txt ρ = .ok v := Outcome.toOption_eq_some_iff

theorem get_insert_eq (context : List (String × F)) (k : String) (v : F) :
    Assoc.get (Assoc.insert context k v) = Function.update (Assoc.get context) k (some v) := by
  funext x
  rw [Assoc.get_insert, Function.update_apply]

theorem evalPrices_eq_ok {prices texts : List (String × String)} (h : Based context)
    (heval : evalPrices fl ev context prices = .ok (context', texts)) : Named prices ∧
      ev.reader.assign (Assoc.get context) (priced prices) = some (Assoc.get context') ∧
        Assoc.get texts "p_node" = Assoc.get prices "p_node" := by
  induction prices generalizing context texts with
  | nil =>
    cases heval
    exact ⟨fun _ he => absurd he List.not_mem_nil, rfl, rfl⟩
  | cons e prices ih =>
    obtain ⟨arg, txt⟩ := e
    by_cases harg : arg = "p_node"
    · have hpriced : priced ((arg, txt) :: prices) = priced prices :=
        List.filter_cons_of_neg (by simpa using harg)
      rw [evalPrices, if_pos harg, Outcome.bind_ok_iff] at heval
      obtain ⟨⟨context₁, texts₁⟩, hrest, heq⟩ := heval
      cases heq
      obtain ⟨hnamed, hassign, -⟩ := ih h hrest
      rw [Named, hpriced]
      refine ⟨hnamed, hassign, ?_⟩
      rw [harg, Assoc.get, Assoc.get, if_pos rfl, if_pos rfl]
    · have hpriced : priced ((arg, txt) :: prices) = (arg, txt) :: priced prices :=
        List.filter_cons_of_pos (by simpa using harg)
      rw [evalPrices, if_neg harg, Outcome.bind_ok_iff] at heval
      obtain ⟨⟨context₁, txt₁⟩, hfirst, heval⟩ := heval
      obtain ⟨⟨context₂, texts₂⟩, hrest, heq⟩ := Outcome.bind_ok_iff.mp heval
      cases heq
      obtain ⟨v, var, hvar, hv, rfl, rfl⟩ := evalPrice_eq_ok h hfirst
      obtain ⟨hnamed, hassign, hnode⟩ := ih (h.insert var v) hrest
      rw [Named, hpriced]
      refine ⟨List.forall_mem_cons.mpr ⟨⟨var, hvar, rfl⟩, hnamed⟩, ?_, ?_⟩
      · rw [Reader.assign, reader_eval_eq_some.mpr hv, Option.bind_some, ← get_insert_eq]
        exact hassign
      · rw [Assoc.get, Assoc.get, if_neg harg, if_neg harg]
        exact hnode

theorem evalPrices_ok {prices : List (String × String)} {σ : String → Option F} (h : Based context)
    (hnamed : Named prices) (hassign : ev.reader.assign (Assoc.get context) (priced prices) = some σ) :
    ∃ context' texts, evalPrices fl ev context prices = .ok (context', texts) ∧
      Assoc.get context' = σ := by
  induction prices generalizing context with
  | nil =>
    cases hassign
    exact ⟨context, [], rfl, rfl⟩
  | cons e prices ih =>
    obtain ⟨arg, txt⟩ := e
    by_cases harg : arg = "p_node"
    · have hpriced : priced ((arg, txt) :: prices) = priced prices :=
        List.filter_cons_of_neg (by simpa using harg)
      rw [Named, hpriced] at hnamed
      rw [hpriced] at hassign
      obtain ⟨context', texts, hrest, hget⟩ := ih h hnamed hassign
      refine ⟨context', (arg, txt) :: texts, ?_, hget⟩
      rw [evalPrices, if_pos harg, hrest]
      rfl
    · have hpriced : priced ((arg, txt) :: prices) = (arg, txt) :: priced prices :=
        List.filter_cons_of_pos (by simpa using harg)
      rw [Named, hpriced, List.forall_mem_cons] at hnamed
      obtain ⟨⟨var, hvar, rfl⟩, hnamed⟩ := hnamed
      rw [hpriced, Reader.assign, Option.bind_eq_some_iff] at hassign
      obtain ⟨v, hv, hassign⟩ := hassign
      rw [← get_insert_eq] at hassign
      obtain ⟨txt', hfirst⟩ := evalPrice_ok h hvar (reader_eval_eq_some.mp hv)
      obtain ⟨context', texts, hrest, hget⟩ := ih (h.insert var v) hnamed hassign
      refine ⟨context', ("p_" ++ var, txt') :: texts, ?_, hget⟩
      rw [evalPrices, if_neg harg, hfirst]
      change (evalPrices fl ev _ prices >>= _) = _
      rw [hrest]
      rfl

theorem price_eq_some {p : Decimal} : price? fl ev meter settings = some p ↔
    Named settings.formula.entries ∧ ∃ txt, Assoc.get settings.formula.entries "p_node" = some txt ∧
      ∃ v, ev.reader.result (Assoc.get (contextMap fl meter settings)) (priced settings.formula.entries) txt =
        some v ∧ Decimal.new (fl.toI64 v) 10 = p := by
  rw [price?, Option.map_eq_some_iff]
  constructor
  · rintro ⟨⟨p', texts⟩, hcalc, rfl⟩
    rw [Outcome.toOption_eq_some_iff, calculate, Outcome.bind_ok_iff] at hcalc
    obtain ⟨⟨context, texts'⟩, heval, hcalc⟩ := hcalc
    simp only [Outcome.bind_ok_iff, Outcome.okOr_ok_iff, Outcome.pure_eq] at hcalc
    obtain ⟨txt, htxt, v, hv, heq⟩ := hcalc
    cases heq
    obtain ⟨hnamed, hassign, hnode⟩ := evalPrices_eq_ok based_contextMap heval
    refine ⟨hnamed, txt, hnode ▸ htxt, v, ?_, rfl⟩
    rw [Reader.result, hassign, Option.bind_some, reader_eval_eq_some, hv]
  · rintro ⟨hnamed, txt, htxt, v, hv, rfl⟩
    obtain ⟨σ, hassign, hlast⟩ := Option.bind_eq_some_iff.mp hv
    obtain ⟨context, texts, heval, rfl⟩ := evalPrices_ok based_contextMap hnamed hassign
    obtain ⟨-, -, hnode⟩ := evalPrices_eq_ok based_contextMap heval
    have hcalc : calculate fl ev meter settings = .ok (Decimal.new (fl.toI64 v) 10,
        Assoc.insert texts "p_node" (txt ++ " = " ++ (Decimal.new (fl.toI64 v) 10).text)) := by
      rw [calculate, heval]
      simp only [Outcome.ok_bind, hnode, htxt, Outcome.okOr, reader_eval_eq_some.mp hlast,
        Outcome.pure_eq]
    exact ⟨_, Outcome.toOption_eq_some_iff.mpr hcalc, rfl⟩

theorem named_perm {formula formula' : PriceMap} (h : formula'.entries.Perm formula.entries) :
    Named formula'.entries ↔ Named formula.entries :=
  forall_congr' fun e => by
    have hmem : e ∈ priced formula'.entries ↔ e ∈ priced formula.entries := (h.filter _).mem_iff
    rw [hmem]

theorem get_perm {formula formula' : PriceMap} (h : formula'.entries.Perm formula.entries)
    (k : String) : Assoc.get formula'.entries k = Assoc.get formula.entries k := by
  refine Option.ext fun v => ?_
  rw [Assoc.get_eq_some_iff formula'.nodup, Assoc.get_eq_some_iff formula.nodup, h.mem_iff]

end Context

-- Where every order of the map gives the same price.
def Unordered (mentions : String → List String) (formula : PriceMap) : Prop :=
  ¬Named formula.entries ∨ ∀ txt ∈ Assoc.get formula.entries "p_node",
    Reader.OrderFree mentions (priced formula.entries) txt

section Orders

variable {F : Type} {mentions : String → List String} {fl : Floats F} {meter : TaskUsedResource}
  {settings : ClusterIdSettings}

theorem nodup_priced (formula : PriceMap) : (Assoc.keys (priced formula.entries)).Nodup :=
  formula.nodup.sublist (List.filter_sublist.map Prod.fst)

theorem Unordered.price_perm (h : Unordered mentions settings.formula) (ev : Evaluator F mentions)
    {formula' : PriceMap} (hperm : formula'.entries.Perm settings.formula.entries) :
    price? fl ev meter { settings with formula := formula' } = price? fl ev meter settings := by
  refine Option.ext fun p => ?_
  rw [price_eq_some, price_eq_some, named_perm hperm, get_perm hperm]
  refine and_congr_right fun hnamed => exists_congr fun txt => and_congr_right fun htxt => ?_
  have hfree : Reader.OrderFree mentions (priced settings.formula.entries) txt :=
    h.resolve_left (not_not_intro hnamed) txt htxt
  have hresult : ev.reader.result (Assoc.get (contextMap fl meter settings))
      (priced formula'.entries) txt = ev.reader.result (Assoc.get (contextMap fl meter settings))
        (priced settings.formula.entries) txt :=
    hfree.result_perm (nodup_priced _) (hperm.filter _)
  rw [← hresult]
  rfl

def evaluatorOf (ev : Reader String String F mentions) : Evaluator F mentions where
  eval txt ρ := .okOr "" (ev.eval txt ρ)
  congr txt ρ ρ' h := by rw [ev.congr txt ρ ρ' h]

theorem reader_evaluatorOf (ev : Reader String String F mentions) :
    (evaluatorOf ev).reader = ev := by
  ext txt ρ v
  rw [reader_eval_eq_some]
  exact Outcome.okOr_ok_iff

theorem perm_reordered {formula : PriceMap} {es : List (String × String)}
    (h : es.Perm (priced formula.entries)) :
    (formula.entries.filter (fun e => e.1 = "p_node") ++ es).Perm formula.entries := by
  have hnode : (formula.entries.filter fun e => !decide (e.1 ≠ "p_node")) =
      formula.entries.filter fun e => e.1 = "p_node" :=
    List.filter_congr fun e _ => by rw [decide_not, Bool.not_not]
  have hsplit := List.filter_append_perm (fun e => decide (e.1 ≠ "p_node")) formula.entries
  rw [hnode] at hsplit
  exact (h.append_left _).trans (List.perm_append_comm.trans hsplit)

-- The entries of the map with the priced ones in another order.
def reordered (formula : PriceMap) {es : List (String × String)}
    (h : es.Perm (priced formula.entries)) : PriceMap where
  entries := formula.entries.filter (fun e => e.1 = "p_node") ++ es
  nodup := ((perm_reordered h).map Prod.fst).nodup_iff.mpr formula.nodup

theorem priced_reordered {formula : PriceMap} {es : List (String × String)}
    (h : es.Perm (priced formula.entries)) : priced (reordered formula h).entries = es := by
  have hes (e : String × String) (he : e ∈ es) : e.1 ≠ "p_node" :=
    of_decide_eq_true (List.mem_filter.mp (h.mem_iff.mp he)).2
  rw [priced, reordered, List.filter_append, List.filter_filter, List.filter_eq_self.mpr
    (fun e he => decide_eq_true (hes e he)), List.filter_eq_nil_iff.mpr, List.nil_append]
  intro e _
  simp

theorem price_unordered_iff : (∀ (ev : Evaluator F mentions) (formula : PriceMap),
    formula.entries.Perm settings.formula.entries →
      price? fl ev meter { settings with formula := formula } = price? fl ev meter settings) ↔
    Unordered mentions settings.formula := by
  refine ⟨fun h => or_iff_not_imp_left.mpr fun hnamed txt htxt => ?_,
    fun h ev formula hperm => h.price_perm ev hperm⟩
  by_contra hfree
  have hfresh (e : String × String) (he : e ∈ priced settings.formula.entries) :
      Assoc.get (contextMap fl meter settings) e.1 = none := by
    obtain ⟨var, -, heq⟩ := not_not.mp hnamed e he
    rw [Assoc.get_eq_none_iff, heq]
    intro hin
    rw [keys_contextMap, List.mem_append, List.mem_map, List.mem_map] at hin
    obtain ⟨x, -, hx⟩ | ⟨x, -, hx⟩ := hin
    · exact append_ne (by decide) (by decide) (by decide) _ _ hx
    · exact append_ne (by decide) (by decide) (by decide) _ _ hx
  obtain ⟨ev, good, stuck, hgood, hstuck, hsome, hnone⟩ :=
    Reader.apart_of_not_orderFree (fl.ofU64 meter.cpu) (nodup_priced settings.formula) hfresh hfree
  have hsame {es : List (String × String)} (hes : es.Perm (priced settings.formula.entries)) :
      price? fl (evaluatorOf ev) meter { settings with formula := reordered settings.formula hes } =
        price? fl (evaluatorOf ev) meter settings :=
    h (evaluatorOf ev) (reordered settings.formula hes) (perm_reordered hes)
  have hprice {es : List (String × String)} (hes : es.Perm (priced settings.formula.entries)) :
      price? fl (evaluatorOf ev) meter { settings with formula := reordered settings.formula hes } =
        (ev.result (Assoc.get (contextMap fl meter settings)) es txt).map
          fun v => Decimal.new (fl.toI64 v) 10 := by
    refine Option.ext fun p => ?_
    rw [price_eq_some, named_perm (perm_reordered hes), get_perm (perm_reordered hes),
      Option.map_eq_some_iff, priced_reordered hes, reader_evaluatorOf]
    constructor
    · rintro ⟨-, txt', htxt', v, hv, hp⟩
      cases htxt.symm.trans htxt'
      exact ⟨v, hv, hp⟩
    · rintro ⟨v, hv, hp⟩
      exact ⟨not_not.mp hnamed, txt, htxt, v, hv, hp⟩
  have heq := (hprice hgood).symm.trans ((hsame hgood).trans ((hsame hstuck).symm.trans (hprice hstuck)))
  rw [hsome, hnone] at heq
  cases heq

end Orders

section Samples

def wholeFloats : Floats Int where
  ofU64 n := n.toNat
  ofMantissa n := n
  toI64 n := .ofInt n
  text n := toString n

-- Every expression is one variable.
def variableEvaluator : Evaluator Int fun txt => [txt] where
  eval txt ρ := .okOr "Variable identifier is not bound to anything by context" (ρ txt)
  congr txt ρ ρ' h := by rw [h txt (List.mem_singleton_self txt)]

def sampleMeter : TaskUsedResource := ⟨1, 1, 1, 1, 1, 1, 1, 1235, 1425⟩

def sampleSettings (formula : PriceMap) : ClusterIdSettings :=
  ⟨⟨1, 10⟩, ⟨1, 10⟩, ⟨1, 10⟩, ⟨1, 10⟩, ⟨1, 10⟩, formula⟩

def forwardFormula : PriceMap where
  entries := [("p_cpu", "n_cpu"), ("p_memory", "p_cpu"), ("p_node", "p_memory")]
  nodup := by decide

def backwardFormula : PriceMap where
  entries := [("p_memory", "p_cpu"), ("p_cpu", "n_cpu"), ("p_node", "p_memory")]
  nodup := by decide

theorem price_ordered : ¬∀ (F : Type) (mentions : String → List String) (fl : Floats F)
    (ev : Evaluator F mentions) (meter : TaskUsedResource) (settings : ClusterIdSettings)
    (formula : PriceMap), formula.entries.Perm settings.formula.entries →
      price? fl ev meter { settings with formula := formula } = price? fl ev meter settings := by
  intro h
  have hperm : backwardFormula.entries.Perm forwardFormula.entries := .swap _ _ _
  have hprice := h Int (fun txt => [txt]) wholeFloats variableEvaluator sampleMeter
    (sampleSettings forwardFormula) backwardFormula hperm
  revert hprice
  decide +kernel

end Samples

end Kuintessence.Billing
