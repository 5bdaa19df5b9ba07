import FractalGateway.Watchdog.Poll

/-! Networks that come and go on any port.

    The cache is kept by port and knows no keys, so what a port's cache holds is told by the last
    visit made on that port, whoever was visited there: its listed peers, and no others. Statements
    about networks that leave, return and replace each other are therefore statements about the
    sequence of visits, through `lastOn` and `Handover`. -/

namespace FractalGateway
open Std Exec

variable {w : ℕ}

/-- The keys of the listed peers. -/
def NetworkStats.keys (stats : NetworkStats w) : List Pubkey := stats.peers.map (·.public_key)

/-! ### The keys a visit leaves cached -/

section
variable {g : Global} {stats : NetworkStats w}

/-- The loop over the peers keeps what is cached and caches what is listed. -/
theorem watchdog_peers_keys {clock : Pubkey → Clock} :
    ∀ {peers : List (PeerStats w)} {s s' : Watch w (Entry w)},
      (watchdog_peers g stats clock peers).run s = .ok () s' → Accepted s'.log.events →
      ∃ new, OnlyNetwork stats.public_key new s s' ∧
        (∀ a ∈ new, a.1.peer ∈ peers.map (·.public_key)) ∧
        ∀ x, s'.cache[x]? ≠ none ↔ x ∈ peers.map (·.public_key) ∨ s.cache[x]? ≠ none
  | [], s, s', hok, _ => by
      obtain ⟨_, rfl⟩ := pure_ok_iff.mp hok
      exact ⟨[], OnlyNetwork.refl _ s, by simp, by simp⟩
  | p :: ps, s, s', hok, hacc => by
      obtain ⟨_, t, hfirst, hrest⟩ := bind_ok_iff.mp hok
      obtain ⟨a, hona, hpa, hoff, item, hpair, _⟩ :=
        logged_peer_view g stats (clock p.public_key) p hfirst
      obtain ⟨b, honb, hpb, hkeys⟩ := watchdog_peers_keys hrest hacc
      refine ⟨a ++ b, hona.trans honb, ?_, fun x => ?_⟩
      · intro e he
        rcases List.mem_append.mp he with he | he
        · exact List.mem_cons.mpr (Or.inl (hpa e he))
        · exact List.mem_cons_of_mem _ (hpb e he)
      · rw [PeerStats.expire_public_key] at hpair
        have haccs : Accepted a := by
          rw [honb.events, hona.events, accepted_append, accepted_append] at hacc
          exact hacc.1.2
        have hhead : t.cache[p.public_key]? ≠ none := by
          generalize t.cache[p.public_key]? = c' at hpair
          cases hpair with
          | stale _ hc => exact hc
          | refused hna _ => exact absurd haccs hna
          | done _ _ _ _ => simp
        rw [hkeys x, List.map_cons, List.mem_cons]
        by_cases hx : x = p.public_key
        · subst hx
          simp [hhead]
        · rw [(hoff x hx).1]
          simp [hx]

/-- What a visit leaves of a network's cache entry: the listed peers. The others that were cached
    are announced as disconnected. -/
structure EntryKeys (stats : NetworkStats w) (new : List (GatewayEvent × Delivery))
    (s s' : Watch w (Entry w)) : Prop where
  only : OnlyNetwork stats.public_key new s s'
  keys : ∀ x, s'.cache[x]? ≠ none ↔ x ∈ stats.keys
  swept : ∀ x, x ∉ stats.keys → s.cache[x]? ≠ none →
    ∃ fate, (.peerDisconnected stats.public_key x, fate) ∈ new
  about : ∀ a ∈ new, a.1.peer ∈ stats.keys ∨ s.cache[a.1.peer]? ≠ none

theorem watchdog_entry_keys {clock : Pubkey → Clock} {s s' : Watch w (Entry w)}
    (hok : (logged (watchdog_entry g stats clock)).run s = .ok () s')
    (hacc : Accepted s'.log.events) : ∃ new, EntryKeys stats new s s' := by
  obtain ⟨t, hloop, b, hswept⟩ := watchdog_entry_ok g stats hok
  have hacct : Accepted t.log.events ∧ Accepted b := by
    rw [hswept.only.events, accepted_append] at hacc
    exact hacc
  obtain ⟨a, hona, hpa, hkeys⟩ := watchdog_peers_keys hloop hacct.1
  have hmem : ∀ x, x ∈ deadPeers stats t ↔ s.cache[x]? ≠ none ∧ x ∉ stats.keys := by
    intro x
    rw [mem_deadPeers, listed_none_iff, ← Option.ne_none_iff_exists', hkeys x]
    constructor
    · rintro ⟨h | h, hnot⟩
      · exact absurd h hnot
      · exact ⟨h, hnot⟩
    · rintro ⟨h, hnot⟩
      exact ⟨Or.inr h, hnot⟩
  have hgone : ∀ x ∈ deadPeers stats t, s'.cache[x]? = none ∧
      ∃ fate, attemptsAbout stats.public_key x b = [(.peerDisconnected stats.public_key x, fate)] := by
    intro x hx
    rcases hswept.dead x hx with h | ⟨_, _, hna⟩
    · exact h
    · exact absurd hacct.2 hna
  refine ⟨a ++ b, hona.trans hswept.only, fun x => ?_, fun x hx hc => ?_, fun e he => ?_⟩
  · by_cases hx : x ∈ deadPeers stats t
    · rw [(hgone x hx).1]
      simpa using ((hmem x).mp hx).2
    · rw [hswept.alive x hx, hkeys x]
      rw [hmem x, not_and, not_not] at hx
      exact ⟨fun h => h.elim id hx, Or.inl⟩
  · obtain ⟨_, fate, hatt⟩ := hgone x ((hmem x).mpr ⟨hc, hx⟩)
    have hin : (.peerDisconnected stats.public_key x, fate) ∈ attemptsAbout stats.public_key x b := by
      rw [hatt]
      exact List.mem_singleton_self _
    exact ⟨fate, List.mem_append_right _ (List.mem_filter.mp hin).1⟩
  · rcases List.mem_append.mp he with he | he
    · exact Or.inl (hpa e he)
    · obtain ⟨x, hx, heq⟩ := hswept.events e he
      rw [heq]
      exact Or.inr ((hmem x).mp hx).1

/-- The same for a visit, on the cache of all ports. -/
structure VisitKeys (stats : NetworkStats w) (new : List (GatewayEvent × Delivery))
    (s s' : Watch w (PeerCache w)) : Prop where
  only : OnlyNetwork stats.public_key new s s'
  others : ∀ port, port ≠ stats.listen_port → s'.cache[port]? = s.cache[port]?
  keys : ∀ x, slot s'.cache stats.listen_port x ≠ none ↔ x ∈ stats.keys
  swept : ∀ x, x ∉ stats.keys → slot s.cache stats.listen_port x ≠ none →
    ∃ fate, (.peerDisconnected stats.public_key x, fate) ∈ new
  about : ∀ a ∈ new, a.1.peer ∈ stats.keys ∨ slot s.cache stats.listen_port a.1.peer ≠ none

theorem visit_keys {clock : Pubkey → Pubkey → Clock} {s s' : Watch w (PeerCache w)}
    (hok : (visit g clock stats).run s = .ok () s') (hacc : Accepted s'.log.events) :
    ∃ new, VisitKeys stats new s s' := by
  have hothers := (visit_only hok).2
  obtain ⟨t, hrun, rfl⟩ := visit_ok hok
  obtain ⟨new, h⟩ := watchdog_entry_keys hrun hacc
  have hbefore : ∀ x, (s.at stats.listen_port).cache[x]? = slot s.cache stats.listen_port x :=
    slot_getD s.cache stats.listen_port
  refine ⟨new, ⟨h.only.events, h.only.reports, h.only.network, h.only.traffic⟩, hothers,
    fun x => ?_, fun x hx hc => h.swept x hx (by rwa [hbefore]), fun a ha => ?_⟩
  · have hafter : slot (s.cache.insert stats.listen_port t.cache) stats.listen_port x =
        t.cache[x]? := by simp [slot]
    rw [hafter]
    exact h.keys x
  · rw [← hbefore]
    exact h.about a ha

end

/-! ### Runs as sequences of visits -/

/-- The visits of a run, in order. -/
def visitsOf (polls : List (Poll w)) : List (NetworkStats w) := polls.flatMap Poll.visits

section
variable {g : Global}
  {I : List (NetworkStats w) → PeerCache w → List (GatewayEvent × Delivery) → Prop}

/-- One visit without refusals keeps `I`. -/
def KeptByVisits (g : Global)
    (I : List (NetworkStats w) → PeerCache w → List (GatewayEvent × Delivery) → Prop) : Prop :=
  ∀ ⦃done : List (NetworkStats w)⦄ ⦃stats : NetworkStats w⦄ ⦃clock : Pubkey → Pubkey → Clock⦄
    ⦃s s' : Watch w (PeerCache w)⦄, I done s.cache s.log.events →
    (visit g clock stats).run s = .ok () s' → Accepted s'.log.events →
    I (done ++ [stats]) s'.cache s'.log.events

/-- What every visit keeps, the visits of a poll keep. -/
theorem KeptByVisits.poll (step : KeptByVisits g I) {clock : Pubkey → Pubkey → Clock} :
    ∀ {visits done : List (NetworkStats w)} {s s' : Watch w (PeerCache w)},
      I done s.cache s.log.events → (forM visits (visit g clock)).run s = .ok () s' →
      Accepted s'.log.events → I (done ++ visits) s'.cache s'.log.events
  | [], done, s, s', h, hok, _ => by
      obtain ⟨_, rfl⟩ := pure_ok_iff.mp hok
      rw [List.append_nil]
      exact h
  | stats :: visits, done, s, s', h, hok, hacc => by
      obtain ⟨_, t, hfirst, hrest⟩ := bind_ok_iff.mp hok
      have hrest : (forM visits (visit g clock)).run t = .ok () s' := hrest
      have hgrow : t.log.events <+: s'.log.events := by
        have hall : Always (OnlyEvents fun _ => True) (forM visits (visit g clock)) :=
          Always.forM fun st _ => (visit_onlyEvents g clock st).mono fun _ _ h =>
            h.mono fun _ _ => trivial
        have h := hall t
        rw [hrest] at h
        exact h.events_prefix
      have hnext := KeptByVisits.poll step (step h hfirst (hacc.of_prefix hgrow)) hrest hacc
      rw [List.append_assoc] at hnext
      exact hnext

/-- What every visit keeps, a run without refusals keeps. -/
theorem KeptByVisits.run (step : KeptByVisits g I) :
    ∀ {polls : List (Poll w)} {done : List (NetworkStats w)} {d d' : Daemon w},
      I done d.cache d.log.events → (watchdog g polls).run d = .ok () d' →
      Accepted d'.log.events → I (done ++ visitsOf polls) d'.cache d'.log.events
  | [], done, d, d', h, hok, _ => by
      obtain ⟨_, rfl⟩ := pure_ok_iff.mp hok
      rw [visitsOf, List.flatMap_nil, List.append_nil]
      exact h
  | poll :: polls, done, d, d', h, hok, hacc => by
      obtain ⟨_, t, hfirst, hrest⟩ := bind_ok_iff.mp hok
      have hacct := hacc.of_prefix (watchdog_events g polls hrest)
      obtain ⟨_, s, hv, rfl⟩ := watchdog_run_ok hfirst
      have hpoll := step.poll (s := d.watch) h hv.run hacct
      have hnext := KeptByVisits.run step (d := s.broadcast (g.reportFate d)) hpoll hrest hacc
      rw [visitsOf, List.flatMap_cons, ← List.append_assoc]
      exact hnext

end

/-- The last visit made on a port. -/
def lastOn (port : UInt16) (visits : List (NetworkStats w)) : Option (NetworkStats w) :=
  (visits.filter fun v => decide (v.listen_port = port)).getLast?

theorem mem_of_lastOn {port : UInt16} {visits : List (NetworkStats w)} {l : NetworkStats w}
    (h : lastOn port visits = some l) : l ∈ visits ∧ l.listen_port = port := by
  have hmem := List.mem_filter.mp (List.mem_of_getLast? h)
  exact ⟨hmem.1, by simpa using hmem.2⟩

theorem lastOn_concat (port : UInt16) (visits : List (NetworkStats w)) (stats : NetworkStats w) :
    lastOn port (visits ++ [stats]) =
      if stats.listen_port = port then some stats else lastOn port visits := by
  rw [lastOn, List.filter_append]
  by_cases h : stats.listen_port = port <;> simp [lastOn, h]

/-- Whenever a port is taken over by another key, `P` holds of the last statistics of its
    predecessor. -/
def Handover (P : NetworkStats w → Prop) (visits : List (NetworkStats w)) : Prop :=
  ∀ done stats rest, visits = done ++ stats :: rest → ∀ u, lastOn stats.listen_port done = some u →
    u.public_key ≠ stats.public_key → P u

theorem Handover.left {P : NetworkStats w → Prop} {a b : List (NetworkStats w)}
    (h : Handover P (a ++ b)) : Handover P a := by
  intro done stats rest heq u hu hne
  exact h done stats (rest ++ b) (by simp [heq]) u hu hne

/-- The cache holds the peers of the last visit on each port. -/
def CachedAsListed (visits : List (NetworkStats w)) (cache : PeerCache w) : Prop :=
  ∀ port x, slot cache port x ≠ none ↔ ∃ u, lastOn port visits = some u ∧ x ∈ u.keys

theorem cachedAsListed_empty : CachedAsListed ([] : List (NetworkStats w)) ∅ := by
  intro port x
  simp [slot_empty, lastOn]

theorem CachedAsListed.visit {visits : List (NetworkStats w)} {stats : NetworkStats w}
    {new : List (GatewayEvent × Delivery)} {s s' : Watch w (PeerCache w)}
    (h : CachedAsListed visits s.cache) (hv : VisitKeys stats new s s') :
    CachedAsListed (visits ++ [stats]) s'.cache := by
  intro port x
  rw [lastOn_concat]
  by_cases hport : stats.listen_port = port
  · subst hport
    rw [if_pos rfl, hv.keys x]
    simp
  · rw [if_neg hport, ← h port x, slot, slot, hv.others port (Ne.symm hport)]

end FractalGateway
