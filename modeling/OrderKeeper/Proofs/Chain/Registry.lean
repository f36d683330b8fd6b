import Mathlib.Data.List.Induction
import Mathlib.Data.List.Nodup
import OrderKeeper.Chain.Registry

/-!
# Which chains make a registry

A registry is made of a list of configurations exactly if every network has a name, an endpoint and no namesake
(`Acceptable`). The first configuration that breaks this tells what is wrong (`Flawed`), and a registry that is made knows
the configured networks and no others, in whatever order they were configured (`ofConfigs_decided`).

The configurations are followed from the first to the last: a registry that knows those before one (`Knows`) either refuses
that one for its flaw (`add_of_flawed`) or knows it as well (`exists_add`).
-/

namespace OrderKeeper.Registry

variable {before after cs ds : List ChainConfig} {c : ChainConfig} {r s : Registry} {message : String}

/-! ## Configurations -/

/-- Every network has a name, an endpoint and no namesake. -/
structure Acceptable (cs : List ChainConfig) : Prop where
  named : ∀ c ∈ cs, c.network ≠ ""
  located : ∀ c ∈ cs, ∃ endpoint, Url.ofText c.rpcUrl = .ok endpoint
  distinct : (cs.map ChainConfig.network).Nodup

/-- What is wrong with a configuration that follows others. A missing name is noticed before the endpoint, and the endpoint
before a name that has been used. -/
inductive Flawed (before : List ChainConfig) (c : ChainConfig) : String → Prop where
  | unnamed : c.network = "" → Flawed before c "network name cannot be empty"
  | unlocated {fault} : c.network ≠ "" → Url.ofText c.rpcUrl = .error fault →
      Flawed before c ("Failed to parse RPC URL for " ++ c.network ++ ": " ++ fault.message)
  | repeated {endpoint} : c.network ≠ "" → Url.ofText c.rpcUrl = .ok endpoint →
      c.network ∈ before.map ChainConfig.network →
      Flawed before c ("network " ++ c.network ++ " is configured more than once")

theorem acceptable_nil : Acceptable [] where
  named := nofun
  located := nofun
  distinct := .nil

theorem Acceptable.of_append (h : Acceptable (before ++ after)) : Acceptable before where
  named c hc := h.named c (List.mem_append_left _ hc)
  located c hc := h.located c (List.mem_append_left _ hc)
  distinct := h.distinct.sublist ((List.sublist_append_left _ _).map _)

theorem Acceptable.perm (h : Acceptable cs) (hp : ds.Perm cs) : Acceptable ds where
  named c hc := h.named c (hp.mem_iff.1 hc)
  located c hc := h.located c (hp.mem_iff.1 hc)
  distinct := (hp.map _).nodup_iff.2 h.distinct

/-- A configuration that cannot follow acceptable ones has a flaw. -/
theorem exists_flawed (h : Acceptable before) (hc : ¬ Acceptable (before ++ [c])) : ∃ message, Flawed before c message := by
  by_cases hname : c.network = ""
  · exact ⟨_, .unnamed hname⟩
  cases hurl : Url.ofText c.rpcUrl with
  | error fault => exact ⟨_, .unlocated hname hurl⟩
  | ok endpoint =>
    refine ⟨_, .repeated hname hurl (by_contra fun hnew => hc ?_)⟩
    exact {
      named := by simpa [or_imp, forall_and] using ⟨h.named, hname⟩
      located := by simpa [or_imp, forall_and] using ⟨h.located, endpoint, hurl⟩
      distinct := by
        rw [List.map_append, List.map_singleton]
        exact List.nodup_append.2 ⟨h.distinct, List.nodup_singleton _, fun n hn m hm hnm =>
          hnew (List.mem_singleton.1 hm ▸ hnm ▸ hn)⟩ }

/-- What is not acceptable has a first configuration that makes it so. -/
theorem exists_first (h : ¬ Acceptable cs) :
    ∃ before c after, cs = before ++ c :: after ∧ Acceptable before ∧ ¬ Acceptable (before ++ [c]) := by
  induction cs using List.reverseRecOn with
  | nil => exact absurd acceptable_nil h
  | append_singleton before c ih =>
    by_cases hbefore : Acceptable before
    · exact ⟨before, c, [], rfl, hbefore, h⟩
    · obtain ⟨first, d, after, rfl, hfirst, hd⟩ := ih hbefore
      exact ⟨first, d, after ++ [c], by simp, hfirst, hd⟩

/-! ## Registries -/

/-- A registry knows the networks of some configurations, and no others. -/
structure Knows (cs : List ChainConfig) (r : Registry) : Prop where
  networks : r.networks = cs.map ChainConfig.network
  get : ∀ c ∈ cs, ∃ endpoint, Url.ofText c.rpcUrl = .ok endpoint ∧ r.get c.network = .ok ⟨c.network, c.chainId, endpoint⟩

theorem Knows.get_of_not_mem (h : Knows cs r) {n : String} (hn : n ∉ cs.map ChainConfig.network) :
    r.get n = .error (.configuration ("network " ++ n ++ " is not supported")) := by
  rw [← h.networks] at hn
  rw [Registry.get, Table.get?_eq_none_iff.2 hn]

theorem get_set_self (r : Registry) (n : String) (chain : Chain) : get ⟨r.chains.set n chain⟩ n = .ok chain := by
  rw [get, Table.get?_set_self]

theorem get_set_of_ne {n m : String} (chain : Chain) (h : n ≠ m) : get ⟨r.chains.set n chain⟩ m = r.get m := by
  rw [get, Table.get?_set_of_ne _ _ h, get]

theorem ofConfig_of_located {endpoint : Url} (hname : c.network ≠ "") (hurl : Url.ofText c.rpcUrl = .ok endpoint) :
    Chain.ofConfig c = .ok ⟨c.network, c.chainId, endpoint⟩ := by
  rw [Chain.ofConfig, if_neg (by simpa using hname), hurl]

/-- A configuration with a chain is added unless its network is known. -/
theorem add_of_located {endpoint : Url} (hname : c.network ≠ "") (hurl : Url.ofText c.rpcUrl = .ok endpoint) :
    r.add c = if (r.chains.get? c.network).isSome
      then .error (.configuration ("network " ++ c.network ++ " is configured more than once"))
      else .ok ⟨r.chains.set c.network ⟨c.network, c.chainId, endpoint⟩⟩ := by
  rw [add, ofConfig_of_located hname hurl]
  cases (r.chains.get? c.network).isSome <;> rfl

theorem add_of_error {f : Fault} (h : Chain.ofConfig c = .error f) : r.add c = .error f := by
  rw [add, h]
  rfl

/-- A configuration with a flaw is refused for it. -/
theorem add_of_flawed (h : Knows before r) (hc : Flawed before c message) :
    r.add c = .error (.configuration message) := by
  cases hc with
  | unnamed hname => exact add_of_error (by rw [Chain.ofConfig, if_pos (by simpa using hname)])
  | unlocated hname hurl => exact add_of_error (by rw [Chain.ofConfig, if_neg (by simpa using hname), hurl])
  | repeated hname hurl hused =>
    have hsome : (r.chains.get? c.network).isSome := by
      rw [← h.networks] at hused
      exact Option.isSome_iff_ne_none.2 fun hnone => Table.get?_eq_none_iff.1 hnone hused
    rw [add_of_located hname hurl, if_pos hsome]

/-- A configuration that can follow those before it is taken in. -/
theorem exists_add (h : Knows before r) (hc : Acceptable (before ++ [c])) :
    ∃ s, r.add c = .ok s ∧ Knows (before ++ [c]) s := by
  obtain ⟨endpoint, hurl⟩ := hc.located c (by simp)
  have hdistinct := hc.distinct
  rw [List.map_append, List.nodup_append] at hdistinct
  have hnew (n : String) (hn : n ∈ before.map ChainConfig.network) : n ≠ c.network :=
    hdistinct.2.2 n hn _ (by simp)
  have hnone : r.chains.get? c.network = none :=
    Table.get?_eq_none_iff.2 fun hused => hnew _ (h.networks ▸ hused) rfl
  refine ⟨⟨r.chains.set c.network ⟨c.network, c.chainId, endpoint⟩⟩, ?_, ?_, fun d hd => ?_⟩
  · rw [add_of_located (hc.named c (by simp)) hurl, hnone]
    rfl
  · rw [networks, Table.keys_set_of_get?_eq_none hnone, ← networks, h.networks]
    simp
  · rcases List.mem_append.1 hd with hd | hd
    · obtain ⟨e, he, hget⟩ := h.get d hd
      exact ⟨e, he, (get_set_of_ne _ (hnew _ (List.mem_map_of_mem hd)).symm).trans hget⟩
    · obtain rfl := List.mem_singleton.1 hd
      exact ⟨endpoint, hurl, get_set_self ..⟩

theorem exists_ofConfigs (h : Acceptable cs) : ∃ r, ofConfigs cs = .ok r ∧ Knows cs r := by
  induction cs using List.reverseRecOn with
  | nil => exact ⟨{}, rfl, rfl, nofun⟩
  | append_singleton before c ih =>
    obtain ⟨r, hr, hknows⟩ := ih h.of_append
    obtain ⟨s, hs, hknows'⟩ := exists_add hknows h
    refine ⟨s, ?_, hknows'⟩
    rw [ofConfigs] at hr ⊢
    rw [List.foldlM_append, hr]
    change (r.add c >>= pure) = _
    rw [hs]
    rfl

/-- The first flaw tells what is wrong, whatever follows it. -/
theorem ofConfigs_of_flawed (h : Acceptable before) (hc : Flawed before c message) :
    ofConfigs (before ++ c :: after) = .error (.configuration message) := by
  obtain ⟨r, hr, hknows⟩ := exists_ofConfigs h
  rw [ofConfigs] at hr ⊢
  rw [List.foldlM_append, hr]
  change (r.add c >>= fun s => after.foldlM add s) = _
  rw [add_of_flawed hknows hc]
  rfl

/-- Registries that know the same networks give the same chains. -/
theorem Knows.get_eq (h : Knows cs r) (h' : Knows ds s) (hp : ds.Perm cs) (n : String) : s.get n = r.get n := by
  by_cases hn : n ∈ cs.map ChainConfig.network
  · obtain ⟨c, hc, rfl⟩ := List.mem_map.1 hn
    obtain ⟨endpoint, hurl, hget⟩ := h.get c hc
    obtain ⟨endpoint', hurl', hget'⟩ := h'.get c (hp.mem_iff.2 hc)
    rw [hurl] at hurl'
    cases hurl'
    rw [hget, hget']
  · have hn' : n ∉ ds.map ChainConfig.network := mt (hp.map _).mem_iff.1 hn
    rw [h.get_of_not_mem hn, h'.get_of_not_mem hn']

/-- **What a list of configurations makes.** It makes a registry exactly if it is acceptable; otherwise the first
configuration with which it is not tells what is wrong. The registry has the chain of every configuration under the name of
its network, refuses every other name and lists the configured names, and so does the one that the same configurations make
in another order. -/
theorem ofConfigs_decided (cs : List ChainConfig) :
    ((∃ r, ofConfigs cs = .ok r) ↔ Acceptable cs) ∧
    (∀ f, ofConfigs cs = .error f ↔ ∃ before c after message, cs = before ++ c :: after ∧ Acceptable before ∧
      ¬ Acceptable (before ++ [c]) ∧ Flawed before c message ∧ f = .configuration message) ∧
    ∀ r, ofConfigs cs = .ok r →
      r.networks.Perm (cs.map ChainConfig.network) ∧
      (∀ c ∈ cs, ∃ endpoint, Url.ofText c.rpcUrl = .ok endpoint ∧
        r.get c.network = .ok ⟨c.network, c.chainId, endpoint⟩) ∧
      (∀ n, n ∉ cs.map ChainConfig.network →
        r.get n = .error (.configuration ("network " ++ n ++ " is not supported"))) ∧
      ∀ ds, ds.Perm cs → ∃ s, ofConfigs ds = .ok s ∧ s.networks.Perm r.networks ∧ ∀ n, s.get n = r.get n := by
  have refused (h : ¬ Acceptable cs) : ∃ before c after message, cs = before ++ c :: after ∧ Acceptable before ∧
      ¬ Acceptable (before ++ [c]) ∧ Flawed before c message ∧ ofConfigs cs = .error (.configuration message) := by
    obtain ⟨before, c, after, rfl, hbefore, hc⟩ := exists_first h
    obtain ⟨message, hflawed⟩ := exists_flawed hbefore hc
    exact ⟨before, c, after, message, rfl, hbefore, hc, hflawed, ofConfigs_of_flawed hbefore hflawed⟩
  have accepted {r : Registry} (h : ofConfigs cs = .ok r) : Acceptable cs := by
    by_contra hnot
    obtain ⟨_, _, _, _, -, -, -, -, herror⟩ := refused hnot
    rw [h] at herror
    cases herror
  refine ⟨⟨fun ⟨r, hr⟩ => accepted hr, fun h => ?_⟩, fun f => ⟨fun h => ?_, ?_⟩, fun r h => ?_⟩
  · obtain ⟨r, hr, -⟩ := exists_ofConfigs h
    exact ⟨r, hr⟩
  · have hnot : ¬ Acceptable cs := fun ha => by
      obtain ⟨r, hr, -⟩ := exists_ofConfigs ha
      rw [h] at hr
      cases hr
    obtain ⟨before, c, after, message, hcs, hbefore, hc, hflawed, herror⟩ := refused hnot
    rw [h] at herror
    exact ⟨before, c, after, message, hcs, hbefore, hc, hflawed, Except.error.inj herror⟩
  · rintro ⟨before, c, after, message, rfl, hbefore, -, hflawed, rfl⟩
    exact ofConfigs_of_flawed hbefore hflawed
  · have ha := accepted h
    obtain ⟨r', hr', hknows⟩ := exists_ofConfigs ha
    rw [h] at hr'
    cases hr'
    refine ⟨.of_eq hknows.networks, hknows.get, fun _ => hknows.get_of_not_mem, fun ds hp => ?_⟩
    obtain ⟨s, hs, hknows'⟩ := exists_ofConfigs (ha.perm hp)
    refine ⟨s, hs, ?_, hknows.get_eq hknows' hp⟩
    rw [hknows.networks, hknows'.networks]
    exact hp.map _

end OrderKeeper.Registry
