import FractalGateway.Watchdog.Step

/-! Following one peer of one network through a poll.

    A poll handles each network on its own cache entry, and each listed peer on its own slot of that
    entry. So what a poll does to the pair (network, peer) is one of six things, listed by
    `PairPoll`: the peer's step (cut short by the clock, cut short by a refused send, or done) when
    the peer is listed, and the sweep (nothing to do, swept, or not reached) when it is not. -/

namespace FractalGateway
open Std Exec

variable {w : ℕ} {κ : Type}

/-- The attempts about peer `x` of network `k`. -/
def attemptsAbout (k x : Pubkey) (l : List (GatewayEvent × Delivery)) :
    List (GatewayEvent × Delivery) := l.filter fun a => a.1.about k x

@[simp] theorem attemptsAbout_nil (k x : Pubkey) : attemptsAbout k x [] = [] := rfl

theorem attemptsAbout_append (k x : Pubkey) (a b : List (GatewayEvent × Delivery)) :
    attemptsAbout k x (a ++ b) = attemptsAbout k x a ++ attemptsAbout k x b :=
  List.filter_append ..

theorem attemptsAbout_eq_self {k x : Pubkey} {l : List (GatewayEvent × Delivery)}
    (h : ∀ a ∈ l, a.1.network = k ∧ a.1.peer = x) : attemptsAbout k x l = l :=
  List.filter_eq_self.mpr fun a ha => decide_eq_true (h a ha)

theorem attemptsAbout_eq_nil {k x : Pubkey} {l : List (GatewayEvent × Delivery)}
    (h : ∀ a ∈ l, ¬(a.1.network = k ∧ a.1.peer = x)) : attemptsAbout k x l = [] :=
  List.filter_eq_nil_iff.mpr fun a ha => by simpa [GatewayEvent.about] using h a ha

theorem Accepted.about {k x : Pubkey} {l : List (GatewayEvent × Delivery)} (h : Accepted l) :
    Accepted (attemptsAbout k x l) := fun a ha => h a (List.mem_filter.mp ha).1

/-- A device's traffic with one more item, if there is one. -/
def Traffic.plus (t : Traffic w) : Option (Traffic w) → Traffic w
  | none => t
  | some item => t.add_assign item

/-- What polling network `k` can do to peer `x`: given what was cached and what is listed (with its
    handshake expired), the sends attempted about the pair, what is cached next, and the traffic
    reported. `clockOk` and `refused` say whether the clock stood at or after the epoch and whether
    some send of the poll was refused. -/
inductive PairPoll (k x : Pubkey) (clockOk refused : Prop) (c : Option (PeerStats w)) :
    Option (PeerStats w) → List (GatewayEvent × Delivery) → Option (PeerStats w) →
    Option (Traffic w) → Prop
  | stale {p : PeerStats w} (ht : ¬clockOk) (hc : c ≠ none) :
      PairPoll k x clockOk refused c (some p) [] c none
  | refused {p : PeerStats w} {l : List (GatewayEvent × Delivery)} (ha : ¬Accepted l)
      (hl : ∀ a ∈ l, a.1 ∈ announce k c p) :
      PairPoll k x clockOk refused c (some p) l c (c.bind (bill · p))
  | done {p : PeerStats w} {l : List (GatewayEvent × Delivery)} (ha : Accepted l)
      (hl : l.map Prod.fst = announce k c p) (hu : ¬Unannounceable c p) (ht : c = none ∨ clockOk) :
      PairPoll k x clockOk refused c (some p) l (some p) (c.bind (bill · p))
  | absent (hc : c = none) : PairPoll k x clockOk refused c none [] none none
  | swept (fate : Delivery) (hc : c ≠ none) :
      PairPoll k x clockOk refused c none [(.peerDisconnected k x, fate)] none none
  | missed (hr : refused) (hc : c ≠ none) : PairPoll k x clockOk refused c none [] c none

theorem PairPoll.mono {k x : Pubkey} {clockOk r r' : Prop} {c l n : Option (PeerStats w)}
    {a : List (GatewayEvent × Delivery)} {item : Option (Traffic w)} (hr : r → r')
    (h : PairPoll k x clockOk r c l a n item) : PairPoll k x clockOk r' c l a n item := by
  cases h with
  | stale ht hc => exact .stale ht hc
  | refused ha hl => exact .refused ha hl
  | done ha hl hu ht => exact .done ha hl hu ht
  | absent hc => exact .absent hc
  | swept fate hc => exact .swept fate hc
  | missed hm hc => exact .missed (hr hm) hc

/-- Something done for network `k` alone: its sends, and no other network's traffic. -/
structure OnlyNetwork (k : Pubkey) (new : List (GatewayEvent × Delivery)) (s s' : Watch w κ) :
    Prop where
  events : s'.log.events = s.log.events ++ new
  reports : s'.log.traffic = s.log.traffic
  network : ∀ a ∈ new, a.1.network = k
  traffic : ∀ k', k' ≠ k → s'.traffic.networks[k']? = s.traffic.networks[k']?

theorem OnlyNetwork.refl (k : Pubkey) (s : Watch w κ) : OnlyNetwork k [] s s :=
  ⟨by simp, rfl, by simp, fun _ _ => rfl⟩

theorem OnlyNetwork.trans {k : Pubkey} {a b : List (GatewayEvent × Delivery)} {s t u : Watch w κ}
    (h : OnlyNetwork k a s t) (h' : OnlyNetwork k b t u) : OnlyNetwork k (a ++ b) s u where
  events := by rw [h'.events, h.events, List.append_assoc]
  reports := h'.reports.trans h.reports
  network := by
    intro e he
    rcases List.mem_append.mp he with he | he
    · exact h.network e he
    · exact h'.network e he
  traffic := fun k' hk => (h'.traffic k' hk).trans (h.traffic k' hk)

/-! ### One peer -/

section
variable (g : Global) (stats : NetworkStats w)

/-- The clock stood at or after the epoch. -/
def Clock.Ok (clock : Clock) : Prop := clock.time.duration_since UNIX_EPOCH ≠ none

instance (clock : Clock) : Decidable clock.Ok := inferInstanceAs (Decidable (_ ≠ _))

/-- What a peer's own step did to its pair. -/
def StepView (clockOk : Prop) (p : PeerStats w) (new : List (GatewayEvent × Delivery))
    (s s' : Watch w (Entry w)) : Prop :=
  ∃ item, PairPoll stats.public_key p.public_key clockOk False
      s.cache[p.public_key]? (some p) new s'.cache[p.public_key]? item ∧
    s'.traffic.device stats.public_key p.public_key =
      (s.traffic.device stats.public_key p.public_key).plus item

/-- The rest of the network is not touched by a peer's step. -/
def OffPeer (x : Pubkey) (s s' : Watch w (Entry w)) : Prop :=
  ∀ y, y ≠ x → s'.cache[y]? = s.cache[y]? ∧
    s'.traffic.device stats.public_key y = s.traffic.device stats.public_key y

theorem Watch.billed_device (s : Watch w κ) (k : Pubkey) (time : BitVec w)
    (c : Option (PeerStats w)) (p : PeerStats w) (y : Pubkey) :
    (s.billed k time c p).traffic.device k y =
      if p.public_key = y then (s.traffic.device k y).plus (c.bind (bill · p))
      else s.traffic.device k y := by
  unfold Watch.billed
  cases c.bind (bill · p) with
  | none => simp [Traffic.plus]
  | some item => simp [TrafficInfo.device_add, Traffic.plus]

theorem Watch.billed_networks (s : Watch w κ) (k : Pubkey) (time : BitVec w)
    (c : Option (PeerStats w)) (p : PeerStats w) {k' : Pubkey} (hk : k' ≠ k) :
    (s.billed k time c p).traffic.networks[k']? = s.traffic.networks[k']? := by
  unfold Watch.billed
  split
  · exact TrafficInfo.networks_add_of_ne _ (Ne.symm hk) ..
  · rfl

/-- Reporting and sending for a peer. -/
theorem onlyNetwork_reported (clock : Clock) (peer : PeerStats w) (s : Watch w (Entry w)) :
    OnlyNetwork stats.public_key (g.peerAttempts stats clock peer s) s
      ((s.reported stats clock peer).sent (g.peerAttempts stats clock peer s)) where
  events := by simp [Watch.reported]
  reports := by simp [Watch.reported]
  network := fun a ha => (announce_about _ _ _ a.1 (g.attempts_mem _ _ a ha)).1
  traffic := fun k' hk => Watch.billed_networks _ _ _ _ _ hk

theorem reported_device (clock : Clock) (peer : PeerStats w) (s : Watch w (Entry w)) (y : Pubkey) :
    (s.reported stats clock peer).traffic.device stats.public_key y =
      if peer.public_key = y then (s.traffic.device stats.public_key y).plus
        (s.cache[peer.public_key]?.bind (bill · (peer.expire clock.now)))
      else s.traffic.device stats.public_key y := by
  rw [Watch.reported, Watch.billed_device, PeerStats.expire_public_key]

/-- A peer's step whose error, if any, is logged: what it did to the pair, and that it did nothing
    else. -/
theorem logged_peer_view (clock : Clock) (peer : PeerStats w) {s s' : Watch w (Entry w)}
    (hok : (logged (watchdog_peer g stats clock peer)).run s = .ok () s') :
    ∃ new, OnlyNetwork stats.public_key new s s' ∧ (∀ a ∈ new, a.1.peer = peer.public_key) ∧
      OffPeer stats peer.public_key s s' ∧
      StepView stats clock.Ok (peer.expire clock.now) new s s' := by
  have hstep := watchdog_peer_step g stats clock peer s
  have hmem : ∀ a ∈ g.peerAttempts stats clock peer s, a.1.peer = peer.public_key := by
    intro a ha
    have := (announce_about _ _ _ a.1 (g.attempts_mem _ _ a ha)).2
    rwa [PeerStats.expire_public_key] at this
  have hon := onlyNetwork_reported g stats clock peer s
  rw [logged_ok_iff] at hok
  generalize (watchdog_peer g stats clock peer).run s = r at hstep hok
  cases hstep with
  | clock chain hp ht =>
    obtain rfl : s = s' := by simpa using hok
    refine ⟨[], OnlyNetwork.refl _ s, by simp, fun y _ => ⟨rfl, rfl⟩, none, ?_, rfl⟩
    rw [PeerStats.expire_public_key]
    exact PairPoll.stale (not_not.mpr ht) (by simp [hp])
  | overflow reason hp ho => simp at hok
  | refused chain ha =>
    obtain rfl : (s.reported stats clock peer).sent (g.peerAttempts stats clock peer s) = s' := by
      simpa using hok
    refine ⟨_, hon, hmem, ?_, s.cache[peer.public_key]?.bind (bill · (peer.expire clock.now)), ?_, ?_⟩
    · intro y hy
      exact ⟨by simp [Watch.reported], by simp [reported_device, Ne.symm hy]⟩
    · have h : PairPoll stats.public_key peer.public_key clock.Ok False s.cache[peer.public_key]?
          (some (peer.expire clock.now)) _ s.cache[peer.public_key]? _ :=
        .refused ha (g.attempts_mem _ _)
      simpa [Watch.reported] using h
    · simp [reported_device]
  | unwrap reason ha hu => simp at hok
  | done ha hu ht =>
    obtain rfl : Watch.remember (peer.expire clock.now)
        ((s.reported stats clock peer).sent (g.peerAttempts stats clock peer s)) = s' := by
      simpa using hok
    refine ⟨_, ⟨hon.events, hon.reports, hon.network, hon.traffic⟩, hmem, ?_,
      s.cache[peer.public_key]?.bind (bill · (peer.expire clock.now)), ?_, ?_⟩
    · intro y hy
      exact ⟨by simp [Watch.remember, Watch.reported, Ne.symm hy],
        by simp [Watch.remember, reported_device, Ne.symm hy]⟩
    · have h : PairPoll stats.public_key peer.public_key clock.Ok False s.cache[peer.public_key]?
          (some (peer.expire clock.now)) _ (some (peer.expire clock.now)) _ :=
        .done ha (g.attempts_fst _ _ ha) hu ht
      simpa [Watch.remember, Watch.reported] using h
    · simp [Watch.remember, reported_device]

/-! ### All listed peers -/

/-- The listed peer with a given key. -/
def listed (peers : List (PeerStats w)) (x : Pubkey) : Option (PeerStats w) :=
  peers.find? fun p => decide (p.public_key = x)

theorem listed_none_iff {peers : List (PeerStats w)} {x : Pubkey} :
    listed peers x = none ↔ x ∉ peers.map (·.public_key) := by
  simp [listed, List.find?_eq_none]

theorem listed_some {peers : List (PeerStats w)} {x : Pubkey} {p : PeerStats w}
    (h : listed peers x = some p) : p ∈ peers ∧ p.public_key = x :=
  ⟨List.mem_of_find?_eq_some h, by simpa using List.find?_some h⟩

/-- What a network's poll did to peer `x`, in the terms of `PairPoll`. -/
def PairView (clock : Pubkey → Clock) (refused : Prop) (peer : Option (PeerStats w)) (x : Pubkey)
    (new : List (GatewayEvent × Delivery)) (s s' : Watch w (Entry w)) : Prop :=
  ∃ item, PairPoll stats.public_key x (clock x).Ok refused s.cache[x]?
      (peer.map (·.expire (clock x).now)) (attemptsAbout stats.public_key x new) s'.cache[x]? item ∧
    s'.traffic.device stats.public_key x = (s.traffic.device stats.public_key x).plus item

/-- Peer `x` was not touched. -/
def Untouched (x : Pubkey) (new : List (GatewayEvent × Delivery)) (s s' : Watch w (Entry w)) :
    Prop :=
  attemptsAbout stats.public_key x new = [] ∧ s'.cache[x]? = s.cache[x]? ∧
    s'.traffic.device stats.public_key x = s.traffic.device stats.public_key x

/-- The loop over the listed peers: each takes its own step, the others are not touched. -/
theorem watchdog_peers_view (clock : Pubkey → Clock) :
    ∀ {peers : List (PeerStats w)} {s s' : Watch w (Entry w)},
      (peers.map (·.public_key)).Nodup →
      (watchdog_peers g stats clock peers).run s = .ok () s' →
      ∃ new, OnlyNetwork stats.public_key new s s' ∧
        (∀ a ∈ new, a.1.peer ∈ peers.map (·.public_key)) ∧
        ∀ x, match listed peers x with
          | some p => PairView stats clock False (some p) x new s s'
          | none => Untouched stats x new s s'
  | [], s, s', _, hok => by
      obtain ⟨_, rfl⟩ := pure_ok_iff.mp hok
      exact ⟨[], OnlyNetwork.refl _ s, by simp, fun x => ⟨rfl, rfl, rfl⟩⟩
  | p :: ps, s, s', hnd, hok => by
      obtain ⟨hp, hps⟩ := List.nodup_cons.mp hnd
      obtain ⟨_, t, hfirst, hrest⟩ := bind_ok_iff.mp hok
      obtain ⟨a, hona, hpa, hoff, item, hpair, hdev⟩ :=
        logged_peer_view g stats (clock p.public_key) p hfirst
      obtain ⟨b, honb, hpb, hview⟩ := watchdog_peers_view clock hps hrest
      refine ⟨a ++ b, hona.trans honb, ?_, fun x => ?_⟩
      · intro e he
        rcases List.mem_append.mp he with he | he
        · exact List.mem_cons.mpr (Or.inl (hpa e he))
        · exact List.mem_cons_of_mem _ (hpb e he)
      · rw [PeerStats.expire_public_key] at hpair hdev
        by_cases hx : p.public_key = x
        · -- the head's own pair: its step, and nothing from the rest of the list
          subst hx
          have hnone : listed ps p.public_key = none := listed_none_iff.mpr hp
          have hrestx := hview p.public_key
          rw [hnone] at hrestx
          obtain ⟨hbn, hcache, hdev'⟩ := hrestx
          have hself : listed (p :: ps) p.public_key = some p := by simp [listed]
          rw [hself]
          refine ⟨item, ?_, hdev'.trans hdev⟩
          rw [attemptsAbout_append, hbn, List.append_nil, hcache,
            attemptsAbout_eq_self fun e he => ⟨hona.network e he, hpa e he⟩]
          exact hpair
        · -- another pair: the head's step does not reach it
          obtain ⟨hcache, hdev'⟩ := hoff x (Ne.symm hx)
          have han : attemptsAbout stats.public_key x a = [] :=
            attemptsAbout_eq_nil fun e he h => hx ((hpa e he).symm.trans h.2)
          have hlist : listed (p :: ps) x = listed ps x := by simp [listed, hx]
          have hrestx := hview x
          rw [hlist]
          cases hl : listed ps x with
          | none =>
            rw [hl] at hrestx
            obtain ⟨hbn, hc, hd⟩ := hrestx
            exact ⟨by rw [attemptsAbout_append, han, hbn]; rfl, hc.trans hcache, hd.trans hdev'⟩
          | some q =>
            rw [hl] at hrestx
            obtain ⟨item', hq, hd⟩ := hrestx
            refine ⟨item', ?_, by rw [hd, hdev']⟩
            rw [attemptsAbout_append, han, List.nil_append, ← hcache]
            exact hq

/-! ### The sweep -/

/-- What a sweep over `dead` did: each dead peer is forgotten and announced, or the sweep ended at a
    refused send before reaching it. -/
structure SweepView (dead : List Pubkey) (new : List (GatewayEvent × Delivery))
    (s s' : Watch w (Entry w)) : Prop where
  only : OnlyNetwork stats.public_key new s s'
  traffic : s'.traffic = s.traffic
  events : ∀ a ∈ new, ∃ x ∈ dead, a.1 = .peerDisconnected stats.public_key x
  alive : ∀ x, x ∉ dead → s'.cache[x]? = s.cache[x]?
  dead : ∀ x ∈ dead,
    (s'.cache[x]? = none ∧ ∃ fate, attemptsAbout stats.public_key x new =
      [(.peerDisconnected stats.public_key x, fate)]) ∨
    (s'.cache[x]? = s.cache[x]? ∧ attemptsAbout stats.public_key x new = [] ∧ ¬Accepted new)

/-- The state after forgetting `x` and attempting to announce it. -/
def Watch.forget (s : Watch w (Entry w)) (k x : Pubkey) (fate : Delivery) : Watch w (Entry w) :=
  Watch.sent { s with cache := s.cache.erase x } [(.peerDisconnected k x, fate)]

theorem sweepView_forget (s : Watch w (Entry w)) (x : Pubkey) (fate : Delivery) :
    SweepView stats [x] [(.peerDisconnected stats.public_key x, fate)] s
      (s.forget stats.public_key x fate) where
  only := ⟨rfl, rfl, by simp [GatewayEvent.network], fun _ _ => rfl⟩
  traffic := rfl
  events := by simp
  alive := by
    intro y hy
    have hne : x ≠ y := fun h => hy (by simp [h])
    simp [Watch.forget, hne]
  dead := by
    intro y hy
    obtain rfl := List.mem_singleton.mp hy
    refine Or.inl ⟨by simp [Watch.forget], fate, ?_⟩
    exact attemptsAbout_eq_self (by simp [GatewayEvent.network, GatewayEvent.peer])

/-- A sweep that was not cut short, followed by another over other peers. -/
theorem SweepView.append {d e : List Pubkey} {a b : List (GatewayEvent × Delivery)}
    {s t u : Watch w (Entry w)} (hd : SweepView stats d a s t) (he : SweepView stats e b t u)
    (ha : Accepted a) (hdis : d.Disjoint e) : SweepView stats (d ++ e) (a ++ b) s u where
  only := hd.only.trans he.only
  traffic := he.traffic.trans hd.traffic
  events := by
    intro n hn
    rcases List.mem_append.mp hn with hn | hn
    · obtain ⟨x, hx, h⟩ := hd.events n hn
      exact ⟨x, List.mem_append_left _ hx, h⟩
    · obtain ⟨x, hx, h⟩ := he.events n hn
      exact ⟨x, List.mem_append_right _ hx, h⟩
  alive := by
    intro x hx
    rw [List.mem_append, not_or] at hx
    exact (he.alive x hx.2).trans (hd.alive x hx.1)
  dead := by
    intro x hx
    have other : ∀ {l : List Pubkey} {n : List (GatewayEvent × Delivery)}, x ∉ l →
        (∀ m ∈ n, ∃ y ∈ l, m.1 = .peerDisconnected stats.public_key y) →
        attemptsAbout stats.public_key x n = [] := by
      intro l n hl hn
      refine attemptsAbout_eq_nil fun m hm h => ?_
      obtain ⟨y, hy, rfl'⟩ := hn m hm
      rw [rfl'] at h
      exact hl (h.2 ▸ hy)
    rcases List.mem_append.mp hx with hx | hx
    · have hxe : x ∉ e := fun h => hdis hx h
      rw [attemptsAbout_append, other hxe he.events, List.append_nil, he.alive x hxe]
      rcases hd.dead x hx with h | ⟨_, _, hna⟩
      · exact Or.inl h
      · exact absurd ha hna
    · have hxd : x ∉ d := fun h => hdis h hx
      rw [attemptsAbout_append, other hxd hd.events, List.nil_append, ← hd.alive x hxd,
        accepted_append, not_and]
      rcases he.dead x hx with h | ⟨hc, hn, hna⟩
      · exact Or.inl h
      · exact Or.inr ⟨hc, hn, fun _ => hna⟩

/-- A sweep cut short at its first peer. -/
theorem SweepView.cut {x : Pubkey} {xs : List Pubkey} {s : Watch w (Entry w)} (hx : x ∉ xs) :
    SweepView stats (x :: xs) [(.peerDisconnected stats.public_key x, .refused)] s
      (s.forget stats.public_key x .refused) where
  only := (sweepView_forget stats s x .refused).only
  traffic := rfl
  events := by simp
  alive := fun y hy => (sweepView_forget stats s x .refused).alive y (by
    rw [List.mem_cons, not_or] at hy
    simpa using hy.1)
  dead := by
    intro y hy
    rcases List.mem_cons.mp hy with rfl | hy
    · exact (sweepView_forget stats s y .refused).dead y (by simp)
    · have hne : x ≠ y := fun h => hx (h ▸ hy)
      refine Or.inr ⟨by simp [Watch.forget, hne], ?_, by simp⟩
      exact attemptsAbout_eq_nil (by simp [GatewayEvent.peer, hne])

/-- The sweep of the dead peers: it never panics, and it succeeds when nothing is refused. -/
theorem watchdog_sweep_view :
    ∀ {dead : List Pubkey} {s : Watch w (Entry w)}, dead.Nodup →
      ∃ new s', SweepView stats dead new s s' ∧
        ((watchdog_sweep g stats dead).run s = .ok () s' ∨
          ¬Accepted new ∧ ∃ chain, (watchdog_sweep g stats dead).run s = .error (.err chain) s')
  | [], s, _ =>
      ⟨[], s, ⟨OnlyNetwork.refl _ s, rfl, by simp, fun _ _ => rfl, by simp⟩, Or.inl rfl⟩
  | x :: xs, s, hnd => by
      obtain ⟨hx, hxs⟩ := List.nodup_cons.mp hnd
      have hrun : (watchdog_sweep g stats (x :: xs)).run s =
          (do g.event (.peerDisconnected stats.public_key x); watchdog_sweep g stats xs :
            EStateM Fail (Watch w (Entry w)) Unit).run { s with cache := s.cache.erase x } := rfl
      have hev := g.event_eq (.peerDisconnected stats.public_key x)
        { s with cache := s.cache.erase x }
      by_cases hr : g.events_broadcast s.log.events.length = .refused
      · rw [if_pos hr] at hev
        refine ⟨_, _, SweepView.cut stats hx, Or.inr ⟨by simp, ["channel closed"], ?_⟩⟩
        rw [hrun, bind_of_error hev]
        rfl
      · rw [if_neg hr] at hev
        obtain ⟨new, s', hview, hres⟩ := watchdog_sweep_view
          (s := s.forget stats.public_key x (g.events_broadcast s.log.events.length)) hxs
        have hfirst := sweepView_forget stats s x (g.events_broadcast s.log.events.length)
        have hdis : [x].Disjoint xs := by
          intro y hy hys
          exact hx (List.mem_singleton.mp hy ▸ hys)
        refine ⟨_, s', hfirst.append stats hview (by simpa using hr) hdis, ?_⟩
        rw [hrun, bind_of_ok hev]
        rcases hres with hok | ⟨hna, chain, herr⟩
        · exact Or.inl hok
        · exact Or.inr ⟨fun h => hna (accepted_append.mp h).2, chain, herr⟩

/-! ### A network's entry -/

/-- No attempt of a sweep is about a peer that is not dead. -/
theorem SweepView.about_nil {dead : List Pubkey} {new : List (GatewayEvent × Delivery)}
    {s s' : Watch w (Entry w)} (h : SweepView stats dead new s s') {x : Pubkey} (hx : x ∉ dead) :
    attemptsAbout stats.public_key x new = [] := by
  refine attemptsAbout_eq_nil fun a ha hab => ?_
  obtain ⟨y, hy, heq⟩ := h.events a ha
  rw [heq] at hab
  exact hx (hab.2 ▸ hy)

/-- The dead peers of a network: cached and not listed. -/
def deadPeers (t : Watch w (Entry w)) : List Pubkey :=
  t.cache.keys.filter fun x => x ∉ stats.peers.map (·.public_key)

theorem mem_deadPeers {t : Watch w (Entry w)} {x : Pubkey} :
    x ∈ deadPeers stats t ↔ (∃ p, t.cache[x]? = some p) ∧ listed stats.peers x = none := by
  rw [deadPeers, List.mem_filter, ExtTreeMap.mem_keys, OrdMap.mem_iff_get, listed_none_iff,
    decide_eq_true_eq]

theorem deadPeers_nodup (t : Watch w (Entry w)) : (deadPeers stats t).Nodup := by
  refine List.Pairwise.filter _ (t.cache.distinct_keys.imp fun h heq => h ?_)
  rw [heq]
  exact ReflCmp.compare_self

/-- A network's poll that did not panic: the loop over its peers, then the sweep. -/
theorem watchdog_entry_ok {clock : Pubkey → Clock} {s s' : Watch w (Entry w)}
    (hok : (logged (watchdog_entry g stats clock)).run s = .ok () s') :
    ∃ t, (watchdog_peers g stats clock stats.peers).run s = .ok () t ∧
      ∃ new, SweepView stats (deadPeers stats t) new t s' := by
  rw [logged_ok_iff] at hok
  cases hrun : (watchdog_peers g stats clock stats.peers).run s with
  | ok a t =>
    have hentry : (watchdog_entry g stats clock).run s =
        (watchdog_sweep g stats (deadPeers stats t)).run t := by
      rw [watchdog_entry, bind_of_ok hrun]
      rfl
    rw [hentry] at hok
    obtain ⟨new, u, hswept, hres⟩ := watchdog_sweep_view g stats (s := t) (deadPeers_nodup stats t)
    obtain rfl : u = s' := by
      rcases hres with h | ⟨_, chain, h⟩ <;> rw [h] at hok <;> simpa using hok
    exact ⟨t, rfl, new, hswept⟩
  | error e t =>
    rw [watchdog_entry, bind_of_error hrun] at hok
    rcases hok with hok | ⟨chain, hok⟩
    · cases hok
    · cases hok
      exact absurd hrun (forM_logged_ne_err _ _ _ _ _)

/-- The loop over the peers works for its network alone. -/
theorem watchdog_peers_only {clock : Pubkey → Clock} :
    ∀ {peers : List (PeerStats w)} {s s' : Watch w (Entry w)},
      (watchdog_peers g stats clock peers).run s = .ok () s' →
      ∃ new, OnlyNetwork stats.public_key new s s'
  | [], s, s', hok => by
      obtain ⟨_, rfl⟩ := pure_ok_iff.mp hok
      exact ⟨[], OnlyNetwork.refl _ s⟩
  | p :: ps, s, s', hok => by
      obtain ⟨_, t, hfirst, hrest⟩ := bind_ok_iff.mp hok
      obtain ⟨a, hona, _⟩ := logged_peer_view g stats (clock p.public_key) p hfirst
      obtain ⟨b, honb⟩ := watchdog_peers_only hrest
      exact ⟨a ++ b, hona.trans honb⟩

/-- Polling a network works for that network alone. -/
theorem watchdog_entry_only {clock : Pubkey → Clock} {s s' : Watch w (Entry w)}
    (hok : (logged (watchdog_entry g stats clock)).run s = .ok () s') :
    ∃ new, OnlyNetwork stats.public_key new s s' := by
  obtain ⟨t, hloop, b, hswept⟩ := watchdog_entry_ok g stats hok
  obtain ⟨a, hona⟩ := watchdog_peers_only g stats hloop
  exact ⟨a ++ b, hona.trans hswept.only⟩

/-- Polling one network, an error of the sweep being logged: every peer of it goes through
    `PairPoll`. -/
theorem watchdog_entry_view {clock : Pubkey → Clock} (hnd : (stats.peers.map (·.public_key)).Nodup)
    {s s' : Watch w (Entry w)}
    (hok : (logged (watchdog_entry g stats clock)).run s = .ok () s') :
    ∃ new, OnlyNetwork stats.public_key new s s' ∧
      ∀ x, PairView stats clock (¬Accepted new) (listed stats.peers x) x new s s' := by
  obtain ⟨t, hloop, b, hswept⟩ := watchdog_entry_ok g stats hok
  obtain ⟨a, hona, hpa, hview⟩ := watchdog_peers_view g stats clock hnd hloop
  refine ⟨a ++ b, hona.trans hswept.only, fun x => ?_⟩
  have hx := hview x
  cases hl : listed stats.peers x with
  | some p =>
    -- a listed peer is not dead, so the sweep leaves what its step did
    have hmem : x ∉ deadPeers stats t := by
      rw [mem_deadPeers, hl]
      simp
    rw [hl] at hx
    obtain ⟨item, hpair, hdev⟩ := hx
    refine ⟨item, ?_, by rw [hswept.traffic]; exact hdev⟩
    rw [attemptsAbout_append, hswept.about_nil stats hmem, List.append_nil, hswept.alive x hmem]
    exact hpair.mono False.elim
  | none =>
    rw [hl] at hx
    obtain ⟨hna, hcache, hdev⟩ := hx
    refine ⟨none, ?_, by rw [hswept.traffic]; exact hdev⟩
    rw [attemptsAbout_append, hna, List.nil_append]
    cases hc : s.cache[x]? with
    | none =>
      have hmem : x ∉ deadPeers stats t := by
        rw [mem_deadPeers, hcache, hc]
        simp
      rw [hswept.about_nil stats hmem, hswept.alive x hmem, hcache, hc]
      exact PairPoll.absent rfl
    | some q =>
      have hmem : x ∈ deadPeers stats t := by
        rw [mem_deadPeers, hcache, hc]
        exact ⟨⟨q, rfl⟩, hl⟩
      rcases hswept.dead x hmem with ⟨hgone, fate, hatt⟩ | ⟨hkept, hatt, hnot⟩
      · rw [hatt, hgone]
        exact PairPoll.swept fate (by simp)
      · rw [hatt, hkept, hcache, hc]
        exact PairPoll.missed (fun h => hnot (accepted_append.mp h).2) (by simp)

end

end FractalGateway
