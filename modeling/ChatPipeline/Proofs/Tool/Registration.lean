import Mathlib.Data.List.Nodup
import ChatPipeline.Agent
import ChatPipeline.Proofs.Tool.Answering

/-!
# What is registered, advertised and executed

However tools are offered to a registry, it holds the first one under each name, in the order in
which the names came up (`entries_offerAll`).  So the descriptions that a tools node or an agent
gives to a model have different names, and a call that carries one of them is a call of the tool
described under it: registry, node and agent agree on what a name stands for
(`advertised_tools_execute`).
-/

namespace ChatPipeline

open ChatPipeline.Text

namespace Registry

/-! ## Offers -/

def offer (r : Registry σ) (t : Tool σ) : Registry σ :=
  match r.register t with
  | .ok s => s
  | .error _ => r

def offerAll (r : Registry σ) (tools : List (Tool σ)) : Registry σ := tools.foldl offer r

def offered (tools : List (Tool σ)) : List (RegisteredTool σ) :=
  tools.filterMap fun t => t.info?.map fun info => { info, tool := t }

/-- The first entry under each name, in the order of the names. -/
def firsts : List (RegisteredTool σ) → List (RegisteredTool σ)
  | [] => []
  | e :: rest => e :: (firsts rest).filter fun other => other.info.name != e.info.name

def refusal (name : String) : Failure :=
  .fault .value ("Tool " ++ quoted name ++ " is already registered")

variable {r s : Registry σ} {t : Tool σ} {info : ToolInfo} {tools : List (Tool σ)}
  {entries : List (RegisteredTool σ)}

theorem register_of_fresh (hinfo : t.info? = some info) (hname : info.name ∉ r.names) :
    r.register t = .ok ⟨r.entries ++ [{ info, tool := t }]⟩ := by
  have hcontains : r.contains info.name = false := by
    rwa [Bool.eq_false_iff, ne_eq, contains_iff]
  unfold register Tool.info
  simp only [hinfo, bind, Except.bind, hcontains]
  rfl

private theorem register_of_taken (hinfo : t.info? = some info) (hname : info.name ∈ r.names) :
    r.register t = .error (refusal info.name) := by
  unfold register Tool.info
  simp only [hinfo, bind, Except.bind, contains_iff.2 hname]
  rfl

private theorem register_of_undescribed (hinfo : t.info? = none) :
    ∃ f, r.register t = .error f := by
  unfold register Tool.info
  rw [hinfo]
  exact ⟨_, rfl⟩

private theorem register_eq_ok (h : r.register t = .ok s) :
    ∃ info, t.info? = some info ∧ info.name ∉ r.names ∧
      s.entries = r.entries ++ [{ info, tool := t }] := by
  cases hinfo : t.info? with
  | none =>
      obtain ⟨f, hf⟩ := register_of_undescribed (r := r) hinfo
      rw [hf] at h
      cases h
  | some info =>
      by_cases hname : info.name ∈ r.names
      · rw [register_of_taken hinfo hname] at h
        cases h
      · rw [register_of_fresh hinfo hname] at h
        cases h
        exact ⟨info, rfl, hname, rfl⟩

/-- Only a tool without a description, or under a name that is taken, is refused. -/
theorem register_refuses_iff :
    (∃ f, r.register t = .error f) ↔ ∀ info, t.info? = some info → info.name ∈ r.names := by
  constructor
  · rintro ⟨f, hf⟩ info hinfo
    by_contra hname
    rw [register_of_fresh hinfo hname] at hf
    cases hf
  · intro h
    cases hinfo : t.info? with
    | none => exact register_of_undescribed hinfo
    | some info => exact ⟨_, register_of_taken hinfo (h info hinfo)⟩

/-! ## The first of each name -/

theorem mem_names_firsts {name : String} :
    name ∈ (firsts entries).map (·.info.name) ↔ name ∈ entries.map (·.info.name) := by
  induction entries with
  | nil => rfl
  | cons e rest ih =>
      by_cases hname : name = e.info.name
      · simp [firsts, hname]
      · simp only [List.mem_map] at ih
        simp only [firsts, List.map_cons, List.mem_cons, hname, false_or, List.mem_map,
          List.mem_filter, ← ih]
        constructor
        · rintro ⟨other, ⟨hmem, -⟩, rfl⟩
          exact ⟨other, hmem, rfl⟩
        · rintro ⟨other, hmem, rfl⟩
          exact ⟨other, ⟨hmem, by simpa using hname⟩, rfl⟩

private theorem nodup_names_firsts (entries : List (RegisteredTool σ)) :
    ((firsts entries).map (·.info.name)).Nodup := by
  induction entries with
  | nil => exact List.nodup_nil
  | cons e rest ih =>
      rw [firsts, List.map_cons, List.nodup_cons]
      constructor
      · rw [List.mem_map]
        rintro ⟨other, hmem, hname⟩
        simpa [hname] using (List.mem_filter.1 hmem).2
      · exact ih.sublist (List.filter_sublist.map _)

private theorem find?_firsts (name : String) :
    (firsts entries).find? (·.info.name == name) = entries.find? (·.info.name == name) := by
  induction entries with
  | nil => rfl
  | cons e rest ih =>
      rw [firsts, List.find?_cons, List.find?_cons]
      split
      · rfl
      · rename_i hname
        rw [List.find?_filter, ← ih]
        congr 1
        funext other
        by_cases hother : other.info.name = name
        · have hne : name ≠ e.info.name := fun h => by simp [h] at hname
          simp [hother, hne]
        · simp [hother]

private theorem firsts_concat (entries : List (RegisteredTool σ)) (e : RegisteredTool σ) :
    firsts (entries ++ [e]) =
      if e.info.name ∈ entries.map (·.info.name) then firsts entries else firsts entries ++ [e] := by
  induction entries with
  | nil => rfl
  | cons first rest ih =>
      rw [List.cons_append, firsts, ih, firsts]
      by_cases hfirst : e.info.name = first.info.name
      · simp only [List.map_cons, List.mem_cons, hfirst, true_or, if_true]
        split
        · rfl
        · simp [hfirst]
      · simp only [List.map_cons, List.mem_cons, hfirst, false_or]
        split
        · rfl
        · simp [hfirst]

/-! ## Registries after offers -/

theorem names_of_entries (h : r.entries = firsts entries) (name : String) :
    name ∈ r.names ↔ name ∈ entries.map (·.info.name) := by
  rw [names, h, mem_names_firsts]

private theorem offered_concat (tools : List (Tool σ)) (t : Tool σ) :
    offered (tools ++ [t]) =
      offered tools ++ (t.info?.map fun info => ({ info, tool := t } : RegisteredTool σ)).toList := by
  unfold offered
  rw [List.filterMap_append]
  cases hinfo : t.info? <;> simp [hinfo]

private theorem entries_offer (h : r.entries = firsts (offered tools)) (t : Tool σ) :
    (r.offer t).entries = firsts (offered (tools ++ [t])) := by
  rw [offered_concat, offer]
  cases hinfo : t.info? with
  | none =>
      obtain ⟨f, hf⟩ := register_of_undescribed (r := r) hinfo
      rw [hf, Option.map_none, Option.toList_none, List.append_nil]
      exact h
  | some info =>
      rw [Option.map_some, Option.toList_some, firsts_concat, ← h]
      by_cases hname : info.name ∈ r.names
      · rw [register_of_taken hinfo hname, if_pos ((names_of_entries h _).1 hname)]
      · rw [register_of_fresh hinfo hname, if_neg (mt (names_of_entries h _).2 hname)]

private theorem entries_offerAll (h : r.entries = firsts (offered before)) (tools : List (Tool σ)) :
    (r.offerAll tools).entries = firsts (offered (before ++ tools)) := by
  induction tools generalizing r before with
  | nil =>
      rw [List.append_nil]
      exact h
  | cons t tools ih =>
      rw [List.append_cons]
      exact ih (entries_offer h t)

private theorem info_of_mem_offered {e : RegisteredTool σ} (h : e ∈ offered tools) :
    e.tool.info? = some e.info := by
  obtain ⟨t, -, ht⟩ := List.mem_filterMap.1 h
  obtain ⟨info, hinfo, rfl⟩ := Option.map_eq_some_iff.1 ht
  exact hinfo

private theorem mem_of_mem_firsts {e : RegisteredTool σ} (h : e ∈ firsts entries) :
    e ∈ entries := by
  induction entries with
  | nil => exact h
  | cons first rest ih =>
      rw [firsts, List.mem_cons] at h
      exact h.elim (fun heq => heq ▸ List.mem_cons_self)
        fun hmem => List.mem_cons_of_mem _ (ih (List.mem_filter.1 hmem).1)

/-- A registry that was offered some tools holds the first one under each name and tells the same of
them in all its answers. -/
structure HoldsFirsts (r : Registry σ) (tools : List (Tool σ)) : Prop where
  entries_eq : r.entries = firsts (offered tools)
  names_nodup : r.names.Nodup
  names_eq : r.names = r.infos.map (·.name)
  infos_eq : r.infos.map some = r.entries.map (·.tool.info?)
  get?_eq : ∀ name, r.get? name = ((offered tools).find? (·.info.name == name)).map (·.tool)
  contains_iff : ∀ name, r.contains name = true ↔ name ∈ r.names
  size_eq : r.size = r.names.length
  refuses_iff : ∀ t, (∃ f, r.register t = .error f) ↔
    ∀ info, t.info? = some info → info.name ∈ r.names
  kept : ∀ t f, r.register t = .error f → r.offer t = r

private theorem holdsFirsts_offerAll (tools : List (Tool σ)) :
    (offerAll {} tools).HoldsFirsts tools := by
  have hnone : ({} : Registry σ).entries = firsts (offered []) := rfl
  have hentries : (offerAll {} tools).entries = firsts (offered tools) :=
    entries_offerAll hnone tools
  refine ⟨hentries, ?_, ?_, ?_, ?_, fun _ => contains_iff, ?_, fun _ => register_refuses_iff, ?_⟩
  · rw [names, hentries]
    exact nodup_names_firsts _
  · rw [names, infos, List.map_map]
    rfl
  · rw [infos, List.map_map]
    refine List.map_congr_left fun e he => ?_
    rw [hentries] at he
    exact (info_of_mem_offered (mem_of_mem_firsts he)).symm
  · intro name
    rw [get?, find?, hentries, find?_firsts]
  · rw [size, names, List.length_map]
  · intro t f hf
    rw [offer, hf]

/-! ## Registries of given tools -/

theorem foldlM_register_eq_ok (h : tools.foldlM register r = .ok s) :
    ∃ added, s.entries = r.entries ++ added ∧ added.map (·.tool) = tools ∧
      (∀ e ∈ added, e.tool.info? = some e.info) ∧ (r.names.Nodup → s.names.Nodup) := by
  induction tools generalizing r with
  | nil =>
      cases h
      exact ⟨[], (List.append_nil _).symm, rfl, nofun, id⟩
  | cons t tools ih =>
      rw [List.foldlM_cons] at h
      obtain ⟨between, hfirst, hrest⟩ := Outcome.bind_eq_ok.1 h
      obtain ⟨info, hinfo, -, hbetween⟩ := register_eq_ok hfirst
      obtain ⟨added, hentries, htools, hadded, hnodup⟩ := ih hrest
      refine ⟨{ info, tool := t } :: added, ?_, ?_, ?_, ?_⟩
      · rw [hentries, hbetween, List.append_assoc, List.singleton_append]
      · rw [List.map_cons, htools]
      · exact List.forall_mem_cons.2 ⟨hinfo, hadded⟩
      · exact fun hr => hnodup (register_nodup hr hfirst)

private theorem offerAll_eq_of_foldlM (h : tools.foldlM register r = .ok s) :
    r.offerAll tools = s := by
  induction tools generalizing r with
  | nil =>
      cases h
      rfl
  | cons t tools ih =>
      rw [List.foldlM_cons] at h
      obtain ⟨between, hfirst, hrest⟩ := Outcome.bind_eq_ok.1 h
      have hoffer : r.offer t = between := by rw [offer, hfirst]
      rw [offerAll, List.foldl_cons, hoffer]
      exact ih hrest

private theorem ofTools_eq_ok (h : ofTools tools = .ok r) :
    r.names.Nodup ∧ r.entries.map (·.tool) = tools ∧
      ∀ e ∈ r.entries, e.tool.info? = some e.info := by
  obtain ⟨added, hentries, htools, hadded, hnodup⟩ := foldlM_register_eq_ok h
  rw [List.nil_append] at hentries
  rw [hentries]
  exact ⟨hnodup List.nodup_nil, htools, hadded⟩

private theorem find?_of_mem (hnodup : r.names.Nodup) {e : RegisteredTool σ} (h : e ∈ r.entries) :
    r.find? e.info.name = some e := by
  cases hfind : r.find? e.info.name with
  | none => simpa using List.find?_eq_none.1 hfind e h
  | some other =>
      have hname : other.info.name = e.info.name := by simpa using List.find?_some hfind
      rw [List.inj_on_of_nodup_map hnodup (List.mem_of_find?_eq_some hfind) h hname]

private theorem get?_eq_some_iff (h : ofTools tools = .ok r) {name : String} :
    r.get? name = some t ↔ t ∈ tools ∧ ∃ info, t.info? = some info ∧ info.name = name := by
  obtain ⟨hnodup, htools, hinfo⟩ := ofTools_eq_ok h
  rw [get?, Option.map_eq_some_iff]
  constructor
  · rintro ⟨e, hfind, rfl⟩
    have hmem := List.mem_of_find?_eq_some hfind
    have hname : e.info.name = name := by simpa using List.find?_some hfind
    exact ⟨htools ▸ List.mem_map_of_mem hmem, e.info, hinfo e hmem, hname⟩
  · rintro ⟨hmem, info, ht, rfl⟩
    rw [← htools] at hmem
    obtain ⟨e, he, rfl⟩ := List.mem_map.1 hmem
    have hsame : e.info = info := Option.some.inj ((hinfo e he).symm.trans ht)
    exact ⟨e, hsame ▸ find?_of_mem hnodup he, rfl⟩

end Registry

/-! ## Advertised tools -/

open Execution

/-- The tools that are described under the names of some calls are invoked one after the other, each
on the arguments of its call. -/
inductive InvokedByName (tools : List (Tool σ)) (limit : Option Limit) :
    Scene σ → List ToolCall → List Verdict → Scene σ → Prop where
  | nil : InvokedByName tools limit s [] [] s
  | cons (hmem : tool ∈ tools) (hinfo : tool.info? = some info) (hname : info.name = call.name)
      (hinvoked : Invoked tool limit call.arguments s verdict between)
      (hrest : InvokedByName tools limit between calls verdicts s') :
      InvokedByName tools limit s (call :: calls) (verdict :: verdicts) s'

variable {tools : List (Tool σ)} {registry : Registry σ} {limit : Option Limit} {s s' : Scene σ}
  {calls : List ToolCall} {verdicts : List Verdict}

private theorem invokedInTurn_iff (h : Registry.ofTools tools = .ok registry) :
    InvokedInTurn registry limit s calls verdicts s' ↔
      InvokedByName tools limit s calls verdicts s' := by
  constructor
  · intro hturn
    induction hturn with
    | nil => exact .nil
    | cons htool hinvoked _ ih =>
        obtain ⟨hmem, info, hinfo, hname⟩ := (Registry.get?_eq_some_iff h).1 htool
        exact .cons hmem hinfo hname hinvoked ih
  · intro hnamed
    induction hnamed with
    | nil => exact .nil
    | cons hmem hinfo hname hinvoked _ ih =>
        exact .cons ((Registry.get?_eq_some_iff h).2 ⟨hmem, _, hinfo, hname⟩) hinvoked ih

namespace ToolsNode

def advertised (n : ToolsNode σ) : List String := n.toolInfos.map (·.name)

/-- What the node tells about its tools is what it does with them. -/
structure Advertises (n : ToolsNode σ) (tools : List (Tool σ)) : Prop where
  described : tools.map (·.info?) = n.toolInfos.map some
  nodup : n.advertised.Nodup
  dispatches : ∀ tool ∈ tools, ∀ info, tool.info? = some info →
    ∀ call limit, call.name = info.name → judge n.registry limit call = (do
      let ending ← Work.attempt (limited limit (tool.invoke call.arguments))
      verdictOf limit ending)
  lost : ∀ call limit, call.name ∉ n.advertised →
    judge n.registry limit call = Work.pure (.error toolNotFound)
  refuses : ∀ m call, call ∈ m.toolCalls → call.name ∉ n.advertised →
    ∃ first ∈ m.toolCalls, first.name ∉ n.advertised ∧
      ∀ deadline s, n.run m deadline s = (.failed (.unknownTool first.name), s)
  answers : ∀ m s verdicts s',
    InvokedByName tools (n.config.timeout.map .real) s m.toolCalls verdicts s' →
      n.Answered m s verdicts s'

private theorem advertised_eq (n : ToolsNode σ) : n.advertised = n.registry.names := by
  rw [advertised, toolInfos, Registry.infos, List.map_map]
  rfl

private theorem ofTools_of_make {config : ToolsConfig} {n : ToolsNode σ}
    (h : make tools config = .ok n) :
    Registry.ofTools tools = .ok n.registry := by
  obtain ⟨registry, hregistry, hn⟩ := Outcome.bind_eq_ok.1 h
  cases hn
  exact hregistry

theorem advertises {n : ToolsNode σ} (h : Registry.ofTools tools = .ok n.registry) :
    n.Advertises tools := by
  obtain ⟨hnodup, htools, hinfo⟩ := Registry.ofTools_eq_ok h
  refine ⟨?_, ?_, ?_, ?_, ?_, ?_⟩
  · rw [← htools, toolInfos, Registry.infos, List.map_map, List.map_map]
    exact List.map_congr_left hinfo
  · rwa [advertised_eq]
  · intro tool hmem info ht call limit hname
    unfold judge
    rw [(Registry.get?_eq_some_iff h).2 ⟨hmem, info, ht, hname.symm⟩]
  · intro call limit hname
    rw [advertised_eq] at hname
    unfold judge
    rw [Registry.get?_eq_none_iff.2 hname]
  · intro m call hmem hname
    rw [advertised_eq] at hname
    rcases n.known_or_lost m.toolCalls with hknown | ⟨before, first, after, hcalls, hbefore, hfirst⟩
    · exact absurd (hknown call hmem) hname
    · refine ⟨first, by rw [hcalls]; simp, by rwa [advertised_eq], fun deadline s => ?_⟩
      unfold run
      rw [hcalls, firstUnknown?_eq_some hbefore hfirst]
      rfl
  · intro m s verdicts s' hnamed
    have hturn := (invokedInTurn_iff h).2 hnamed
    exact answered_of_invokedInTurn hturn.known hturn

end ToolsNode

theorem Agent.advertises {model : ChatModel σ} {config : ToolsConfig} {bound : Int} {a : Agent σ}
    (h : Agent.make model (ToolsNode.make tools config) bound = .ok a) :
    a.tools.Advertises tools ∧
      ∀ history, a.model.generate history = model.ask a.tools.toolInfos history := by
  obtain ⟨-, h⟩ := Outcome.guard_eq_ok.1 h
  obtain ⟨n, hn, h⟩ := Outcome.bind_eq_ok.1 h
  cases h
  exact ⟨ToolsNode.advertises (ToolsNode.ofTools_of_make hn), fun history => rfl⟩

/-- A registry holds the first tool that was offered under each name.  The names that a node or an
agent advertises are different ones, and a call is carried out by the tool that is described under
its name, or by none. -/
theorem advertised_tools_execute (tools : List (Tool σ)) :
    (Registry.offerAll {} tools).HoldsFirsts tools ∧
    (∀ config n, ToolsNode.make tools config = .ok n →
      n.registry = Registry.offerAll {} tools ∧ n.Advertises tools) ∧
    ∀ model config bound a, Agent.make model (ToolsNode.make tools config) bound = .ok a →
      a.tools.Advertises tools ∧
        ∀ history, a.model.generate history = model.ask a.tools.toolInfos history := by
  refine ⟨Registry.holdsFirsts_offerAll tools, fun config n h => ?_,
    fun _ _ _ _ h => Agent.advertises h⟩
  have hregistry := ToolsNode.ofTools_of_make h
  exact ⟨(Registry.offerAll_eq_of_foldlM hregistry).symm, ToolsNode.advertises hregistry⟩

/-! ### Two tools, one of them offered twice -/

def described (name : String) (answer : Value) : Tool Unit where
  typeName := "Described"
  name := name
  info? := some { name }
  run _ := pure answer

/-- A model that is asked with two tools: the second gong is no third one. -/
theorem second_gong_refused :
    (Registry.offerAll {} [described "gong" (.int 1), described "tram" (.int 2),
      described "gong" (.int 3)]).HoldsFirsts
        [described "gong" (.int 1), described "tram" (.int 2), described "gong" (.int 3)] ∧
    ∃ n a, ToolsNode.make [described "gong" (.int 1), described "tram" (.int 2)] = .ok n ∧
      Agent.make { ask := fun _ _ => pure .none }
        (ToolsNode.make [described "gong" (.int 1), described "tram" (.int 2)]) = .ok a ∧
      n.advertised = ["gong", "tram"] ∧
      n.Advertises [described "gong" (.int 1), described "tram" (.int 2)] ∧
      a.tools.Advertises [described "gong" (.int 1), described "tram" (.int 2)] :=
  ⟨(advertised_tools_execute _).1, _, _, rfl, rfl, rfl,
    ((advertised_tools_execute _).2.1 {} _ rfl).2,
    ((advertised_tools_execute [described "gong" (.int 1), described "tram" (.int 2)]).2.2
      { ask := fun _ _ => pure .none } {} Agent.defaultMaxSteps _ rfl).1⟩

end ChatPipeline
