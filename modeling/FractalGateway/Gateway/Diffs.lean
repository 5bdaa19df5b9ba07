import FractalGateway.Gateway.Converge

/-! Applying diffs agrees with applying whole configurations.

    A diff that succeeds takes a world described by one configuration to a world described by the
    client's fold of the diff into it. Entry by entry this rests on the listing of namespaces made
    when the request began: it stays good for the ports still to come, since every entry is local to
    its own. -/

namespace FractalGateway
open Std Exec

section
variable {os : Os} {deploy : Deployment}

theorem NetworkState.rekey_self {network : NetworkState} {port : UInt16}
    (h : network.listen_port = port) : { network with listen_port := port } = network := by
  subst h
  rfl

theorem GatewayConfig.Keyed.rekeyed_eq {config : GatewayConfig} (h : config.Keyed) :
    config.rekeyed = config.toList := by
  refine (List.map_congr_left fun e he => ?_).trans (List.map_id _)
  rw [NetworkState.rekey_self (h e.1 e.2 ((OrdMap.mem_toList_iff _ _ _).mp he))]
  rfl

/-- Deleting a namespace is not seen on a port whose link leads to another. -/
theorem netns_del_view {name : String} {port : UInt16} {m m' : Machine}
    (h : (netns_del os name).run m = .ok () m') (hne : portName NETNS_PREFIX port ≠ name)
    {master : Option String}
    (hlink : (m.sys.view port).link = some (portName NETNS_PREFIX port, master)) :
    m'.sys.view port = m.sys.view port := by
  obtain ⟨_, hsys⟩ := netns_del_ok h
  obtain ⟨v, hv, hvn⟩ := Option.map_eq_some_iff.mp hlink
  have hnetns : v.netns ≠ name := by
    rw [(Prod.mk.inj hvn).1]
    exact hne
  rw [hsys]
  simp [System.view, System.wgif, System.link, hv, Option.filter, hnetns, hne.symm]

/-- Removing a port, when the listing tells whether its namespace is there. -/
theorem remove_port_configured {config : GatewayConfig} {names : List String} {port : UInt16}
    {w w' : World} (ht : Configured deploy config w)
    (hlisted : portName NETNS_PREFIX port ∈ names ↔ port ∈ config)
    (h : (apply_entry os deploy names (port, none)).run w = .ok () w') :
    Configured deploy (config.erase port) w' := by
  obtain ⟨_, t, hstore, hrest⟩ := bind_ok_iff.mp h
  cases hstore
  obtain ⟨hrun, hstored⟩ := onMachine_ok hrest
  have hstored' : w'.stored = config.erase port := by
    rw [hstored, ← ht.stored]
  have hother : ∀ {q : UInt16} {network : NetworkState},
      (config.erase port)[q]? = some network → port ≠ q ∧ config[q]? = some network := by
    intro q network hget
    rw [OrdMap.get_erase] at hget
    split at hget
    · cases hget
    · next hne => exact ⟨hne, hget⟩
  rcases skipIf_ok_iff.mp hrun with ⟨hnot, hsame⟩ | ⟨hin, hdel⟩
  · -- the port was not there, so there is nothing to remove
    have hconfig : config.erase port = config := by
      refine ExtTreeMap.ext_getElem? fun q => ?_
      rw [OrdMap.get_erase]
      split
      · next heq => rw [← heq, (OrdMap.not_mem_iff_get _ _).mp fun hm => hnot (hlisted.mpr hm)]
      · rfl
    have hsys : w'.sys = w.sys := by rw [World.sys, ← hsame]
    refine ⟨hstored', fun n hn => ?_, fun q network hget => ?_⟩
    · rw [hsys, hconfig]
      exact ht.names n hn
    · rw [hsys]
      exact ht.shown q network (hother hget).2
  · obtain ⟨_, hsys⟩ := netns_del_ok hdel
    refine ⟨hstored', fun n hn => ?_, fun q network hget => ?_⟩
    · have hmem : n ∈ w'.sys.netns ↔ portName NETNS_PREFIX port ≠ n ∧ n ∈ w.sys.netns := by
        rw [World.sys, hsys, OrdMap.mem_erase]
      rw [hmem, ht.names n hn]
      constructor
      · rintro ⟨hne, q, hq, rfl⟩
        have hpq : port ≠ q := fun heq => hne (by rw [heq])
        exact ⟨q, (OrdMap.mem_erase _ _ _).mpr ⟨hpq, hq⟩, rfl⟩
      · rintro ⟨q, hq, rfl⟩
        obtain ⟨hpq, hq⟩ := (OrdMap.mem_erase _ _ _).mp hq
        exact ⟨fun heq => hpq (portName_injective _ heq), q, hq, rfl⟩
    · obtain ⟨hpq, hq⟩ := hother hget
      have hshown := ht.shown q network hq
      obtain ⟨rules, hconfig, hview⟩ := hshown
      refine ⟨rules, hconfig, ?_⟩
      rw [← hview]
      exact netns_del_view hdel (fun heq => hpq (portName_injective _ heq).symm)
        (congrArg PortView.link hview)

/-- Setting a port. -/
theorem set_port_configured {config : GatewayConfig} {names : List String} {port : UInt16}
    {network : NetworkState} {w w' : World} (ht : Configured deploy config w)
    (hport : network.listen_port = port)
    (h : (apply_entry os deploy names (port, some network)).run w = .ok () w') :
    Configured deploy (config.insert port network) w' := by
  have hstored := apply_entry_stored h
  obtain ⟨_, t, hhand, hstore⟩ := bind_ok_iff.mp h
  cases hstore
  obtain ⟨hrun, _⟩ := handNetwork_ok hhand
  have hplaced := apply_network_placed hrun
  refine ⟨?_, fun n hn => ?_, fun q network' hget => ?_⟩
  · rw [hstored, ht.stored]
    rfl
  · show n ∈ t.sys.netns ↔ _
    rw [hplaced.names n, ht.names n hn]
    simp only [OrdMap.mem_insert, or_and_right, exists_or, exists_eq_left']
    rw [NetworkState.netns_name, hport]
  · rw [OrdMap.get_insert] at hget
    split at hget
    · next heq =>
      cases hget
      rw [← heq, NetworkState.rekey_self hport]
      exact hplaced.shown
    · next hne =>
      exact (ht.shown q network' hget).of_view (hplaced.others q fun heq =>
        hne (hport.symm.trans heq.symm))

theorem apply_entry_configured {config : GatewayConfig} {names : List String}
    {entry : UInt16 × Option NetworkState} {w w' : World} (ht : Configured deploy config w)
    (hlisted : portName NETNS_PREFIX entry.1 ∈ names ↔ entry.1 ∈ config)
    (hport : ∀ network, entry.2 = some network → network.listen_port = entry.1)
    (h : (apply_entry os deploy names entry).run w = .ok () w') :
    Configured deploy (config.applyEntry entry) w' := by
  obtain ⟨port, _ | network⟩ := entry
  · exact remove_port_configured ht hlisted h
  · exact set_port_configured ht (hport network rfl) h

/-- Along the loop the listing stays good for the ports that are still to come. -/
theorem apply_entries_configured {names : List String} :
    ∀ {entries : List (UInt16 × Option NetworkState)} {config : GatewayConfig} {w w' : World},
      Configured deploy config w → entries.Pairwise (fun a b => a.1 ≠ b.1) →
      (∀ e ∈ entries, portName NETNS_PREFIX e.1 ∈ names ↔ e.1 ∈ config) →
      (∀ e ∈ entries, ∀ network, e.2 = some network → network.listen_port = e.1) →
      (forM entries (apply_entry os deploy names)).run w = .ok () w' →
      Configured deploy (entries.foldl GatewayConfig.applyEntry config) w'
  | [], _, _, _, ht, _, _, _, h => by
      obtain ⟨_, rfl⟩ := pure_ok_iff.mp h
      exact ht
  | e :: es, config, w, w', ht, hd, hlisted, hport, h => by
      obtain ⟨hhead, htail⟩ := List.pairwise_cons.mp hd
      obtain ⟨_, t, hfirst, hrest⟩ := bind_ok_iff.mp h
      have ht' := apply_entry_configured ht (hlisted e List.mem_cons_self)
        (hport e List.mem_cons_self) hfirst
      rw [List.foldl_cons]
      refine apply_entries_configured ht' htail (fun e' he' => ?_)
        (fun e' he' => hport e' (List.mem_cons_of_mem _ he')) hrest
      rw [hlisted e' (List.mem_cons_of_mem _ he'), OrdMap.mem_iff_get, OrdMap.mem_iff_get,
        GatewayConfig.get_applyEntry, if_neg (hhead e' he')]

/-- A diff that succeeds takes a described world to the world of the client's fold. -/
theorem apply_partial_describes {config : GatewayConfig} {diff : GatewayConfigPartial} {w w' : World}
    (hconfig : config.Keyed) (hdiff : diff.Keyed) (hw : Describes deploy config w)
    (h : (FractalGateway.apply_partial os deploy diff).run w = .ok () w') :
    Describes deploy (config.apply_partial diff) w' := by
  obtain ⟨names, t₁, hprep, h⟩ := bind_ok_iff.mp h
  obtain ⟨_, t₂, hloop, h⟩ := bind_ok_iff.mp h
  obtain ⟨u, t₃, hget, hnginx⟩ := bind_ok_iff.mp h
  cases hget
  obtain ⟨hprep, hst₁⟩ := onMachine_ok hprep
  obtain ⟨hlisted, hnetns, hviews⟩ := prepare_ok hprep
  have ht₁ : Configured deploy config t₁ := by
    refine ⟨hst₁.trans hw.stored, fun n hn => ?_, fun port network hget => ?_⟩
    · rw [mem_netns_congr (hnetns n)]
      exact hw.names n hn
    · exact (hw.shown port network hget).of_view (hviews port)
  have ht₂ := apply_entries_configured ht₁ (OrdMap.toList_pairwise diff) (fun e _ => by
    rw [hlisted, ht₁.names _ (starts_with_portName _ _)]
    constructor
    · rintro ⟨port, hp, heq⟩
      rw [portName_injective _ heq]
      exact hp
    · exact fun hp => ⟨e.1, hp, rfl⟩) hdiff.entries hloop
  refine Configured.describes ht₂ ?_ hnginx
  rw [ht₂.stored, (hconfig.apply_partial hdiff).rekeyed_eq]
  rfl

theorem apply_partials_describe :
    ∀ {diffs : List GatewayConfigPartial} {config : GatewayConfig} {w w' : World},
      config.Keyed → (∀ diff ∈ diffs, diff.Keyed) → Describes deploy config w →
      (forM diffs (FractalGateway.apply_partial os deploy)).run w = .ok () w' →
      Describes deploy (diffs.foldl GatewayConfig.apply_partial config) w'
  | [], _, _, _, _, _, hw, h => by
      obtain ⟨_, rfl⟩ := pure_ok_iff.mp h
      exact hw
  | diff :: diffs, _, _, _, hc, hd, hw, h => by
      obtain ⟨_, t, hfirst, hrest⟩ := bind_ok_iff.mp h
      have hdiff := hd diff List.mem_cons_self
      rw [List.foldl_cons]
      exact apply_partials_describe (hc.apply_partial hdiff)
        (fun d hm => hd d (List.mem_cons_of_mem _ hm)) (apply_partial_describes hc hdiff hw hfirst)
        hrest

end

/-- Diffs that succeed after a full request lead where one full request of the folded
    configuration leads. -/
theorem diffs_agree_with_full_apply (os₁ os₂ : Os) (deploy : Deployment) (config : GatewayConfig)
    (diffs : List GatewayConfigPartial) (hconfig : config.Keyed)
    (hdiffs : ∀ diff ∈ diffs, diff.Keyed) (w w₁ w₁' w₂ w₂' : World)
    (h₁ : (apply os₁ deploy config).run w = .ok () w₁)
    (h₁' : (forM diffs (FractalGateway.apply_partial os₁ deploy)).run w₁ = .ok () w₁')
    (_ : (apply os₂ deploy config).run w = .ok () w₂)
    (h₂' : (apply os₂ deploy (diffs.foldl GatewayConfig.apply_partial config)).run w₂ =
      .ok () w₂') : SameSystem w₁' w₂' :=
  (apply_partials_describe hconfig hdiffs (apply_describes h₁) h₁').sameSystem (apply_describes h₂')

theorem diffs_agree_with_full_apply_bench :
    SameSystem
      (final ((forM [Bench.diff 6000 (Bench.bare 6000), Bench.removal 7]
        (FractalGateway.apply_partial Bench.os Bench.deploy)).run
          (final ((apply Bench.os Bench.deploy ∅).run Bench.messy))))
      (final ((apply Bench.os Bench.deploy (List.foldl GatewayConfig.apply_partial ∅
          [Bench.diff 6000 (Bench.bare 6000), Bench.removal 7])).run
        (final ((apply Bench.os Bench.deploy ∅).run Bench.messy)))) := by
  refine diffs_agree_with_full_apply Bench.os Bench.os Bench.deploy ∅ _ ?_ ?_ Bench.messy _ _ _ _
    (ok_of_returned (by decide +kernel)) (ok_of_returned (by decide +kernel))
    (ok_of_returned (by decide +kernel)) (ok_of_returned (by decide +kernel))
  · intro port network h
    simp at h
  · intro diff hd port network h
    rcases List.mem_cons.mp hd with rfl | hd
    · obtain ⟨rfl, rfl⟩ := Bench.get_diff h
      rfl
    · rw [List.mem_singleton.mp hd] at h
      exact absurd h Bench.get_removal

end FractalGateway
