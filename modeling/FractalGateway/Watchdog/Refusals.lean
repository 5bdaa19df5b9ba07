import FractalGateway.Watchdog.Difference

/-! What becomes of an event that nobody takes.

    A listed peer is remembered after its events are sent, so a refused send leaves its cache entry
    as it was and the next call sends again (`peers_resend`). The sweep of the peers that left does
    it the other way round: it removes the entry, then sends, so a refused send there is forgotten.
    An interrupted call loses nothing exactly when no send of its sweep is refused. -/

namespace FractalGateway
open Std Exec

variable {w : ℕ}

/-! ### The sends of a call -/

section
variable (g : Global) (k : Pubkey) (clock : Pubkey → Clock) (cache : Entry w)

/-- The step of a listed peer panics, whatever becomes of its sends. -/
def Global.Crashes (peer : PeerStats w) : Prop :=
  (cache[peer.public_key]? = none ∨ (clock peer.public_key).Ok) ∧
    ((∃ previous, cache[peer.public_key]? = some previous ∧ g.Overflows previous peer) ∨
      Unannounceable cache[peer.public_key]? (peer.expire (clock peer.public_key).now))

/-- The sends a listed peer's step attempts, the `n`-th of the channel being the next. -/
def Global.stepAttempts (n : ℕ) (peer : PeerStats w) : List (GatewayEvent × Delivery) :=
  if cache[peer.public_key]? = none ∨ (clock peer.public_key).Ok then
    g.attempts n (announce k cache[peer.public_key]? (peer.expire (clock peer.public_key).now))
  else []

/-- The sends of the loop over the listed peers. -/
def Global.loopAttempts : ℕ → List (PeerStats w) → List (GatewayEvent × Delivery)
  | _, [] => []
  | n, p :: ps =>
    g.stepAttempts k clock cache n p ++
      Global.loopAttempts (n + (g.stepAttempts k clock cache n p).length) ps

end

/-- The sends depend on the cache at the listed peers only. -/
theorem Global.loopAttempts_congr (g : Global) (k : Pubkey) (clock : Pubkey → Clock)
    {cache cache' : Entry w} : ∀ (peers : List (PeerStats w)) (n : ℕ),
      (∀ p ∈ peers, cache'[p.public_key]? = cache[p.public_key]?) →
      g.loopAttempts k clock cache' n peers = g.loopAttempts k clock cache n peers
  | [], _, _ => rfl
  | p :: ps, n, h => by
      obtain ⟨hp, hps⟩ := List.forall_mem_cons.mp h
      have hstep : g.stepAttempts k clock cache' n p = g.stepAttempts k clock cache n p := by
        simp only [Global.stepAttempts, hp]
      rw [Global.loopAttempts, Global.loopAttempts, hstep, g.loopAttempts_congr k clock ps _ hps]

/-! ### One listed peer -/

section
variable (g : Global) (stats : NetworkStats w) (clock : Pubkey → Clock) (peer : PeerStats w)
  (s : Watch w (Entry w))

/-- The step of a listed peer, its errors logged. -/
def peerStep : EStateM Fail (Watch w (Entry w)) Unit :=
  logged (watchdog_peer g stats (clock peer.public_key) peer)

/-- What a step that does not panic leaves: its sends, and the peer's own slot at most. -/
structure Stepped (s' : Watch w (Entry w)) : Prop where
  events : s'.log.events = s.log.events ++
    g.stepAttempts stats.public_key clock s.cache s.log.events.length peer
  others : ∀ y, y ≠ peer.public_key → s'.cache[y]? = s.cache[y]?
  refused : ¬Accepted (g.stepAttempts stats.public_key clock s.cache s.log.events.length peer) →
    s'.cache[peer.public_key]? = s.cache[peer.public_key]?
  slot : s'.cache[peer.public_key]? = s.cache[peer.public_key]? ∨
    s'.cache[peer.public_key]? = some (peer.expire (clock peer.public_key).now)

end

section
variable {g : Global} {stats : NetworkStats w} {clock : Pubkey → Clock} {peer : PeerStats w}
  {s : Watch w (Entry w)}

/-- A peer that cannot be announced for want of an endpoint has nothing to send before. -/
theorem announce_of_unannounceable {k : Pubkey} {c : Option (PeerStats w)} {p : PeerStats w}
    (h : Unannounceable c p) : announce k c p = [] := by
  obtain ⟨hsome, hnone, hc⟩ := h
  obtain ⟨t, ht⟩ := Option.isSome_iff_exists.mp hsome
  cases c with
  | none => simp [announce, ht, hnone]
  | some q =>
    have hq : q.latest_handshake = none := hc
    simp [announce, ht, hnone, hq]

theorem not_overflows_of_not_crashes (h : ¬g.Crashes clock s.cache peer)
    (ht : s.cache[peer.public_key]? = none ∨ (clock peer.public_key).Ok) :
    ∀ previous, s.cache[peer.public_key]? = some previous →
      ¬g.Overflows previous (peer.expire (clock peer.public_key).now) := by
  intro previous hp ho
  refine h ⟨ht, Or.inl ⟨previous, hp, ?_⟩⟩
  simpa [Global.Overflows] using ho

/-- A step that does not crash is done, or is given up at the clock or at a refused send. -/
theorem peerStep_ok (stats : NetworkStats w) (h : ¬g.Crashes clock s.cache peer) :
    ∃ s', (peerStep g stats clock peer).run s = .ok () s' ∧ Stepped g stats clock peer s s' := by
  by_cases ht : s.cache[peer.public_key]? = none ∨ (clock peer.public_key).Ok
  · have hu : ¬Unannounceable s.cache[peer.public_key]?
        (peer.expire (clock peer.public_key).now) := fun hu => h ⟨ht, Or.inr hu⟩
    have hrun := watchdog_peer_announcing g stats (clock peer.public_key) peer s ht
      (not_overflows_of_not_crashes h ht)
    have hatt : g.stepAttempts stats.public_key clock s.cache s.log.events.length peer =
        g.peerAttempts stats (clock peer.public_key) peer s := if_pos ht
    have hsend := g.forM_event (announce stats.public_key s.cache[peer.public_key]?
      (peer.expire (clock peer.public_key).now)) (s.reported stats (clock peer.public_key) peer)
    rw [Watch.reported, Watch.billed_log, ← Watch.reported, ← Global.peerAttempts] at hsend
    rw [Global.announcing, if_neg hu, bind_assoc] at hrun
    by_cases ha : Accepted (g.peerAttempts stats (clock peer.public_key) peer s)
    · rw [if_pos ha] at hsend
      refine ⟨_, logged_ok_iff.mpr (Or.inl (hrun.trans (bind_of_ok hsend))), ?_, ?_, ?_, ?_⟩
      · rw [hatt]
        simp [Watch.remember, Watch.reported]
      · intro y hy
        simp [Watch.remember, Watch.reported, Ne.symm hy]
      · intro hna
        rw [hatt] at hna
        exact absurd ha hna
      · right
        simp [Watch.remember]
    · rw [if_neg ha] at hsend
      refine ⟨_, logged_ok_iff.mpr (Or.inr ⟨_, hrun.trans (bind_of_error hsend)⟩), ?_, ?_, ?_, ?_⟩
      · rw [hatt]
        simp [Watch.reported]
      · intro y _
        simp [Watch.reported]
      · intro _
        simp [Watch.reported]
      · left
        simp [Watch.reported]
  · have hnil : g.stepAttempts stats.public_key clock s.cache s.log.events.length peer = [] :=
      if_neg ht
    obtain ⟨hc, hclock⟩ := not_or.mp ht
    obtain ⟨previous, hp⟩ := Option.ne_none_iff_exists'.mp hc
    have hrun := watchdog_peer_stale g stats (clock peer.public_key) peer s hp (not_not.mp hclock)
    refine ⟨s, logged_ok_iff.mpr (Or.inr ⟨_, hrun⟩), ?_, fun _ _ => rfl, fun _ => rfl, Or.inl rfl⟩
    rw [hnil, List.append_nil]

/-- A step that crashes sends nothing and leaves the cache alone. -/
theorem peerStep_crash (stats : NetworkStats w) (h : g.Crashes clock s.cache peer) :
    ∃ reason s', (peerStep g stats clock peer).run s = .error (.panic reason) s' ∧
      s'.log.events = s.log.events ∧ s'.cache = s.cache := by
  obtain ⟨ht, hcrash⟩ := h
  have hlogged : ∀ {reason : String} {s' : Watch w (Entry w)},
      (watchdog_peer g stats (clock peer.public_key) peer).run s = .error (.panic reason) s' →
      (peerStep g stats clock peer).run s = .error (.panic reason) s' := by
    intro reason s' hrun
    have hrun : watchdog_peer g stats (clock peer.public_key) peer s =
      .error (.panic reason) s' := hrun
    simp only [peerStep, logged, EStateM.run, hrun]
  by_cases ho : ∃ previous, s.cache[peer.public_key]? = some previous ∧ g.Overflows previous peer
  · obtain ⟨previous, hp, hover⟩ := ho
    have hclock := ht.resolve_left (by simp [hp])
    exact ⟨_, s, hlogged (watchdog_peer_overflow g stats _ peer s hp hclock
      (by simpa [Global.Overflows] using hover)), rfl, rfl⟩
  · have hu := hcrash.resolve_left ho
    have hrun := watchdog_peer_announcing g stats (clock peer.public_key) peer s ht (by
      intro previous hp hover
      exact ho ⟨previous, hp, by simpa [Global.Overflows] using hover⟩)
    rw [Global.announcing, announce_of_unannounceable hu, if_pos hu] at hrun
    exact ⟨_, s.reported stats (clock peer.public_key) peer, hlogged hrun,
      by simp [Watch.reported], by simp [Watch.reported]⟩

end

/-! ### The listed peers -/

section
variable {g g' : Global} {stats : NetworkStats w} {clock : Pubkey → Clock}

theorem Global.Crashes.congr {cache cache' : Entry w} {p : PeerStats w} (hb : g'.build = g.build)
    (hc : cache'[p.public_key]? = cache[p.public_key]?) (h : g'.Crashes clock cache' p) :
    g.Crashes clock cache p := by
  rw [Global.Crashes, hc] at h
  refine ⟨h.1, h.2.imp ?_ id⟩
  rintro ⟨previous, hp, ho⟩
  exact ⟨previous, hp, hb ▸ ho.1, ho.2⟩

/-- A peer that is cached as it is listed does not crash its step. -/
theorem not_crashes_again {cache : Entry w} {p : PeerStats w}
    (hc : cache[p.public_key]? = some (p.expire (clock p.public_key).now)) :
    ¬g.Crashes clock cache p := by
  rintro ⟨-, ⟨previous, hp, ho⟩ | hu⟩
  · obtain rfl := Option.some.inj (hc.symm.trans hp)
    simpa using ho.2.2
  · rw [hc] at hu
    obtain ⟨hsome, -, hnone⟩ := hu
    rw [Option.bind_some] at hnone
    simp [hnone] at hsome

theorem watchdog_peers_cons (p : PeerStats w) (ps : List (PeerStats w)) :
    watchdog_peers g stats clock (p :: ps) = (do
      peerStep g stats clock p
      watchdog_peers g stats clock ps) := rfl

theorem key_ne {p : PeerStats w} {ps : List (PeerStats w)}
    (h : p.public_key ∉ ps.map (·.public_key)) : ∀ q ∈ ps, q.public_key ≠ p.public_key := by
  intro q hq heq
  exact h (List.mem_map.mpr ⟨q, hq, heq⟩)

/-- The loop over peers none of which crashes. -/
theorem watchdog_peers_ok (stats : NetworkStats w) :
    ∀ {peers : List (PeerStats w)} {s : Watch w (Entry w)},
    (peers.map (·.public_key)).Nodup → (∀ p ∈ peers, ¬g.Crashes clock s.cache p) →
    ∃ t, (watchdog_peers g stats clock peers).run s = .ok () t ∧
      t.log.events = s.log.events ++
        g.loopAttempts stats.public_key clock s.cache s.log.events.length peers ∧
      ∀ y ∉ peers.map (·.public_key), t.cache[y]? = s.cache[y]?
  | [], s, _, _ => ⟨s, rfl, by simp [Global.loopAttempts], fun _ _ => rfl⟩
  | p :: ps, s, hnd, hcalm => by
      obtain ⟨hp, hps⟩ := List.nodup_cons.mp hnd
      obtain ⟨hcalm₁, hcalm⟩ := List.forall_mem_cons.mp hcalm
      obtain ⟨s₁, hfirst, hstep⟩ := peerStep_ok stats hcalm₁
      have hsame : ∀ q ∈ ps, s₁.cache[q.public_key]? = s.cache[q.public_key]? := fun q hq =>
        hstep.others _ (key_ne hp q hq)
      obtain ⟨t, hrest, hev, hcache⟩ := watchdog_peers_ok stats (s := s₁) hps fun q hq h =>
        hcalm q hq (h.congr rfl (hsame q hq))
      refine ⟨t, (bind_of_ok hfirst).trans hrest, ?_, fun y hy => ?_⟩
      · rw [hev, hstep.events, Global.loopAttempts, List.append_assoc, List.length_append,
          g.loopAttempts_congr stats.public_key clock ps _ hsame]
      · rw [List.map_cons, List.mem_cons, not_or] at hy
        rw [hcache y hy.2, hstep.others y hy.1]

/-- The loop over peers one of which crashes. -/
theorem watchdog_peers_crash (stats : NetworkStats w) :
    ∀ {peers : List (PeerStats w)} {s : Watch w (Entry w)},
    (peers.map (·.public_key)).Nodup → (∃ p ∈ peers, g.Crashes clock s.cache p) →
    ∃ reason t, (watchdog_peers g stats clock peers).run s = .error (.panic reason) t
  | [], _, _, h => by simp at h
  | p :: ps, s, hnd, h => by
      obtain ⟨hp, hps⟩ := List.nodup_cons.mp hnd
      by_cases hcrash : g.Crashes clock s.cache p
      · obtain ⟨reason, t, hrun, _⟩ := peerStep_crash stats hcrash
        exact ⟨reason, t, bind_of_error hrun⟩
      · obtain ⟨s₁, hfirst, hstep⟩ := peerStep_ok stats hcrash
        obtain ⟨q, hq, hqc⟩ : ∃ q ∈ ps, g.Crashes clock s.cache q := by
          obtain ⟨q, hq, hqc⟩ := h
          rcases List.mem_cons.mp hq with rfl | hq
          · exact absurd hqc hcrash
          · exact ⟨q, hq, hqc⟩
        have hsame := hstep.others q.public_key (key_ne hp q hq)
        obtain ⟨reason, t, hrun⟩ := watchdog_peers_crash stats (s := s₁) hps
          ⟨q, hq, hqc.congr rfl hsame.symm⟩
        exact ⟨reason, t, (bind_of_ok hfirst).trans hrun⟩

/-- Every send of a step is about its peer. -/
theorem stepAttempts_about {k : Pubkey} {cache : Entry w} {n : ℕ} {p : PeerStats w} :
    ∀ a ∈ g.stepAttempts k clock cache n p,
      a.1 ∈ announce k cache[p.public_key]? (p.expire (clock p.public_key).now) ∧
        a.1.network = k ∧ a.1.peer = p.public_key := by
  intro a ha
  rw [Global.stepAttempts] at ha
  split at ha
  · have hmem := g.attempts_mem _ _ a ha
    have habout := announce_about _ _ _ a.1 hmem
    rw [PeerStats.expire_public_key] at habout
    exact ⟨hmem, habout⟩
  · cases ha

/-- On a channel that takes everything, a step that sent something sends it. -/
theorem stepAttempts_resent {k : Pubkey} {cache cache' : Entry w} {n : ℕ} {p : PeerStats w}
    (n' : ℕ) (hg : ∀ n, g'.events_broadcast n ≠ .refused)
    (hc : cache'[p.public_key]? = cache[p.public_key]?) {a : GatewayEvent × Delivery}
    (ha : a ∈ g.stepAttempts k clock cache n p) :
    ∃ fate, (a.1, fate) ∈ g'.stepAttempts k clock cache' n' p := by
  have hmem := (stepAttempts_about a ha).1
  rw [Global.stepAttempts] at ha ⊢
  rw [hc]
  split at ha
  · next ht =>
    rw [if_pos ht]
    have hacc : Accepted (g'.attempts n' (announce k cache[p.public_key]?
        (p.expire (clock p.public_key).now))) := by
      intro b hb
      obtain ⟨m, hm⟩ := g'.attempts_fate _ _ b hb
      rw [hm]
      exact hg m
    rw [← g'.attempts_fst _ _ hacc, List.mem_map] at hmem
    obtain ⟨⟨e, fate⟩, hb, rfl⟩ := hmem
    exact ⟨fate, hb⟩
  · cases ha

/-- A peer that a step got past does not crash a step from the slot it was left in. -/
theorem Stepped.not_crashes {p : PeerStats w} {s s₁ : Watch w (Entry w)} {cache : Entry w}
    (h : Stepped g stats clock p s s₁) (hcrash : ¬g.Crashes clock s.cache p)
    (hb : g'.build = g.build) (hc : cache[p.public_key]? = s₁.cache[p.public_key]?) :
    ¬g'.Crashes clock cache p := by
  rcases h.slot with hslot | hslot
  · exact fun hagain => hcrash (hagain.congr hb (hc.trans hslot))
  · exact not_crashes_again (hc.trans hslot)

/-- A loop that gets past its first peer sends that peer's events, then those of the others. -/
theorem Stepped.peers_log {p : PeerStats w} {ps : List (PeerStats w)} {u u₁ : Watch w (Entry w)}
    {rest : List (GatewayEvent × Delivery)} (h : Stepped g stats clock p u u₁)
    (hfirst : (peerStep g stats clock p).run u = .ok () u₁)
    (hrest : (final ((watchdog_peers g stats clock ps).run u₁)).log.events =
      u₁.log.events ++ rest) :
    (final ((watchdog_peers g stats clock (p :: ps)).run u)).log.events = u.log.events ++
      (g.stepAttempts stats.public_key clock u.cache u.log.events.length p ++ rest) := by
  rw [watchdog_peers_cons, bind_of_ok hfirst, hrest, h.events, List.append_assoc]

/-- The loop over the listed peers, however it ends: a peer with a refused send keeps its cache
    entry, and the same loop on a channel that takes everything sends its events again. -/
theorem peers_resend (stats : NetworkStats w) (clock : Pubkey → Clock)
    (hb : g'.build = g.build) (hg : ∀ n, g'.events_broadcast n ≠ .refused) :
    ∀ {peers : List (PeerStats w)} {s : Watch w (Entry w)}, (peers.map (·.public_key)).Nodup →
      ∃ new t, final ((watchdog_peers g stats clock peers).run s) = t ∧
        t.log.events = s.log.events ++ new ∧
        (∀ a ∈ new, a.1.network = stats.public_key ∧ a.1.peer ∈ peers.map (·.public_key)) ∧
        (∀ y ∉ peers.map (·.public_key), t.cache[y]? = s.cache[y]?) ∧
        ∀ e, (e, Delivery.refused) ∈ new → t.cache[e.peer]? = s.cache[e.peer]? ∧
          ∀ u : Watch w (Entry w), (∀ p ∈ peers, u.cache[p.public_key]? = t.cache[p.public_key]?) →
            ∃ new' fate, (e, fate) ∈ new' ∧
              (final ((watchdog_peers g' stats clock peers).run u)).log.events =
                u.log.events ++ new'
  | [], s, _ => ⟨[], s, rfl, by simp, by simp, fun _ _ => rfl, by simp⟩
  | p :: ps, s, hnd => by
      obtain ⟨hp, hps⟩ := List.nodup_cons.mp hnd
      by_cases hcrash : g.Crashes clock s.cache p
      · obtain ⟨reason, s₁, hrun, hev, hcache⟩ := peerStep_crash stats hcrash
        refine ⟨[], s₁, ?_, by simp [hev], by simp, fun _ _ => by rw [hcache], by simp⟩
        rw [watchdog_peers_cons, bind_of_error hrun]
        rfl
      · obtain ⟨s₁, hfirst, hstep⟩ := peerStep_ok stats hcrash
        obtain ⟨new, t, hfinal, hev, habout, hother, hrefused⟩ :=
          peers_resend stats clock hb hg (s := s₁) hps
        have hown : t.cache[p.public_key]? = s₁.cache[p.public_key]? := hother _ hp
        refine ⟨g.stepAttempts stats.public_key clock s.cache s.log.events.length p ++ new, t, ?_,
          by rw [hev, hstep.events, List.append_assoc], ?_, ?_, ?_⟩
        · rw [watchdog_peers_cons, bind_of_ok hfirst]
          exact hfinal
        · intro a ha
          rcases List.mem_append.mp ha with ha | ha
          · obtain ⟨_, hnet, hpeer⟩ := stepAttempts_about a ha
            exact ⟨hnet, List.mem_cons.mpr (Or.inl hpeer)⟩
          · exact ⟨(habout a ha).1, List.mem_cons_of_mem _ (habout a ha).2⟩
        · intro y hy
          rw [List.map_cons, List.mem_cons, not_or] at hy
          rw [hother y hy.2, hstep.others y hy.1]
        · intro e he
          -- the second run gets past the first peer without a crash
          have hpast : ∀ u : Watch w (Entry w),
              (∀ q ∈ p :: ps, u.cache[q.public_key]? = t.cache[q.public_key]?) →
              ¬g'.Crashes clock u.cache p := fun u hu =>
            hstep.not_crashes hcrash hb ((hu p List.mem_cons_self).trans hown)
          rcases List.mem_append.mp he with he | he
          · have hpeer := (stepAttempts_about _ he).2.2
            have hslot := hstep.refused fun ha => ha _ he rfl
            have hsame : t.cache[p.public_key]? = s.cache[p.public_key]? := hown.trans hslot
            refine ⟨by rw [hpeer]; exact hsame, fun u hu => ?_⟩
            obtain ⟨u₁, hfirst', hstep'⟩ := peerStep_ok stats (hpast u hu)
            obtain ⟨fate, hmem⟩ := stepAttempts_resent u.log.events.length hg
              ((hu p List.mem_cons_self).trans hsame) he
            obtain ⟨⟨rest, hlog, _⟩, _⟩ := watchdog_peers_onlyEvents g' stats clock ps u₁
            exact ⟨_, fate, List.mem_append_left _ hmem, hstep'.peers_log hfirst' hlog⟩
          · obtain ⟨hcache, hagain⟩ := hrefused e he
            have hep : e.peer ≠ p.public_key := by
              intro heq
              have hmem := (habout _ he).2
              rw [heq] at hmem
              exact hp hmem
            refine ⟨hcache.trans (hstep.others _ hep), fun u hu => ?_⟩
            obtain ⟨u₁, hfirst', hstep'⟩ := peerStep_ok stats (hpast u hu)
            obtain ⟨new', fate, hsent, hlog⟩ := hagain u₁ fun q hq => by
              rw [hstep'.others _ (key_ne hp q hq), hu q (List.mem_cons_of_mem _ hq)]
            exact ⟨_, fate, List.mem_append_right _ hsent, hstep'.peers_log hfirst' hlog⟩

end

/-! ### The sweep -/

theorem Global.attempts_accepted_iff (g : Global) : ∀ (n : ℕ) (events : List GatewayEvent),
    Accepted (g.attempts n events) ↔ ∀ i < events.length, g.events_broadcast (n + i) ≠ .refused
  | n, [] => by simp [Global.attempts]
  | n, e :: es => by
      have ih := g.attempts_accepted_iff (n + 1) es
      by_cases hr : g.events_broadcast n = .refused
      · simp only [Global.attempts, hr, if_true, accepted_cons, List.length_cons]
        constructor
        · rintro ⟨h, -⟩
          exact absurd rfl h
        · intro h
          exact absurd hr (h 0 (by omega))
      · rw [Global.attempts, if_neg hr, accepted_cons, ih]
        constructor
        · rintro ⟨h, hes⟩ (_ | i) hi
          · exact h
          · rw [show n + (i + 1) = n + 1 + i by omega]
            exact hes i (by simpa using hi)
        · intro h
          refine ⟨h 0 (by simp), fun i hi => ?_⟩
          rw [show n + 1 + i = n + (i + 1) by omega]
          exact h (i + 1) (by simpa using hi)

section
variable {g : Global} {stats : NetworkStats w}

/-- The sweep sends for the dead peers in order, up to the first refusal, which is its error. -/
theorem watchdog_sweep_run (g : Global) (stats : NetworkStats w) :
    ∀ (dead : List Pubkey) (s : Watch w (Entry w)),
    ∃ s', s'.log.events = s.log.events ++ g.attempts s.log.events.length
        (dead.map (.peerDisconnected stats.public_key)) ∧
      (watchdog_sweep g stats dead).run s =
        if Accepted (g.attempts s.log.events.length
          (dead.map (.peerDisconnected stats.public_key))) then .ok () s'
        else .error (.err ["channel closed"]) s'
  | [], s => ⟨s, by simp [Global.attempts], by simp [Global.attempts, watchdog_sweep]⟩
  | x :: xs, s => by
      have hrun : (watchdog_sweep g stats (x :: xs)).run s =
          (do g.event (.peerDisconnected stats.public_key x); watchdog_sweep g stats xs :
            EStateM Fail (Watch w (Entry w)) Unit).run { s with cache := s.cache.erase x } := rfl
      have hev := g.event_eq (.peerDisconnected stats.public_key x)
        { s with cache := s.cache.erase x }
      by_cases hr : g.events_broadcast s.log.events.length = .refused
      · rw [if_pos hr] at hev
        refine ⟨s.forget stats.public_key x .refused, ?_, ?_⟩
        · simp [Watch.forget, Global.attempts, hr]
        · rw [hrun, bind_of_error hev]
          simp [Global.attempts, hr, Watch.forget]
      · rw [if_neg hr] at hev
        obtain ⟨s', hlog, hrest⟩ := watchdog_sweep_run g stats xs
          (s.forget stats.public_key x (g.events_broadcast s.log.events.length))
        have hlen : (s.forget stats.public_key x
            (g.events_broadcast s.log.events.length)).log.events.length =
              s.log.events.length + 1 := by simp [Watch.forget]
        rw [hlen] at hlog hrest
        refine ⟨s', ?_, ?_⟩
        · rw [hlog]
          simp [Watch.forget, Global.attempts, hr]
        · rw [hrun, bind_of_ok hev]
          refine hrest.trans ?_
          simp [Global.attempts, hr]

/-- Peers that are not listed are dead before the loop if and only if they are dead after it. -/
theorem deadPeers_length {s t : Watch w (Entry w)}
    (h : ∀ y ∉ stats.peers.map (·.public_key), t.cache[y]? = s.cache[y]?) :
    (deadPeers stats t).length = (deadPeers stats s).length := by
  refine List.Perm.length_eq ((List.perm_ext_iff_of_nodup (deadPeers_nodup stats t)
    (deadPeers_nodup stats s)).mpr fun x => ?_)
  rw [mem_deadPeers, mem_deadPeers]
  constructor
  · rintro ⟨⟨p, hp⟩, hl⟩
    exact ⟨⟨p, by rw [← h x (listed_none_iff.mp hl)]; exact hp⟩, hl⟩
  · rintro ⟨⟨p, hp⟩, hl⟩
    exact ⟨⟨p, by rw [h x (listed_none_iff.mp hl)]; exact hp⟩, hl⟩

/-- The sweep's sends are the attempts for its dead peers, and it succeeds when none is refused. -/
theorem watchdog_sweep_attempts {dead : List Pubkey} (hnd : dead.Nodup) (s : Watch w (Entry w)) :
    SweepView stats dead (g.attempts s.log.events.length
        (dead.map (.peerDisconnected stats.public_key))) s
        (final ((watchdog_sweep g stats dead).run s)) ∧
      (Accepted (g.attempts s.log.events.length (dead.map (.peerDisconnected stats.public_key))) →
        returned ((watchdog_sweep g stats dead).run s) = true) := by
  obtain ⟨s', hlog, hrun⟩ := watchdog_sweep_run g stats dead s
  obtain ⟨new, s'', hview, hres⟩ := watchdog_sweep_view g stats (s := s) hnd
  have hfinal : final ((watchdog_sweep g stats dead).run s) = s' := by
    rw [hrun]
    split <;> rfl
  have hfinal' : final ((watchdog_sweep g stats dead).run s) = s'' := by
    rcases hres with h | ⟨_, chain, h⟩ <;> rw [h] <;> rfl
  obtain rfl : s' = s'' := hfinal.symm.trans hfinal'
  obtain rfl := List.append_cancel_left (hview.only.events.symm.trans hlog)
  refine ⟨by rw [hfinal]; exact hview, fun ha => ?_⟩
  rw [hrun, if_pos ha]
  rfl

/-! ### A whole call -/

/-- Every send of the sweep finds a subscriber: as many as there are dead peers, after those of the
    listed peers. -/
def Global.SweepHeard (g : Global) (stats : NetworkStats w) (clock : Pubkey → Clock)
    (s : Watch w (Entry w)) : Prop :=
  ∀ i < (deadPeers stats s).length, g.events_broadcast (s.log.events.length +
    (g.loopAttempts stats.public_key clock s.cache s.log.events.length stats.peers).length + i) ≠
      .refused

/-- The work on a network's entry adds to what the loop over its peers has sent. -/
theorem watchdog_entry_log (g : Global) (stats : NetworkStats w) (clock : Pubkey → Clock)
    (s : Watch w (Entry w)) :
    ∃ more, (final ((watchdog_entry g stats clock).run s)).log.events =
      (final ((watchdog_peers g stats clock stats.peers).run s)).log.events ++ more := by
  cases hrun : (watchdog_peers g stats clock stats.peers).run s with
  | error e t =>
    rw [watchdog_entry, bind_of_error hrun]
    exact ⟨[], by simp⟩
  | ok a t =>
    have hentry : (watchdog_entry g stats clock).run s =
        (watchdog_sweep g stats (deadPeers stats t)).run t := by
      rw [watchdog_entry, bind_of_ok hrun]
      rfl
    rw [hentry]
    exact ⟨_, (watchdog_sweep_attempts (deadPeers_nodup stats t) t).1.only.events⟩

/-- A network's entry when no listed peer crashes: the loop, and the sweep after it. -/
theorem watchdog_entry_calm {clock : Pubkey → Clock} {s : Watch w (Entry w)}
    (hnd : (stats.peers.map (·.public_key)).Nodup)
    (hcalm : ∀ p ∈ stats.peers, ¬g.Crashes clock s.cache p) :
    ∃ t, (watchdog_peers g stats clock stats.peers).run s = .ok () t ∧
      (watchdog_entry g stats clock).run s =
        (watchdog_sweep g stats (deadPeers stats t)).run t ∧
      (∀ y ∉ stats.peers.map (·.public_key), t.cache[y]? = s.cache[y]?) ∧
      (g.SweepHeard stats clock s ↔ Accepted (g.attempts t.log.events.length
        ((deadPeers stats t).map (.peerDisconnected stats.public_key)))) := by
  obtain ⟨t, hloop, hev, hother⟩ := watchdog_peers_ok stats hnd hcalm
  refine ⟨t, hloop, ?_, hother, ?_⟩
  · rw [watchdog_entry, bind_of_ok hloop]
    rfl
  · rw [g.attempts_accepted_iff, List.length_map, hev, List.length_append, deadPeers_length hother]
    rfl

end

/-- The sends of one call. -/
def Global.callAttempts (g : Global) (poll : Poll w) (netns : String) (s : Watch w (PeerCache w)) :
    List (GatewayEvent × Delivery) :=
  (final ((watchdog_netns g poll netns).run s)).log.events.drop s.log.events.length

/-- An event that the call could not send: its send was refused, or the call returned an error
    before the sweep had come to the peer. -/
def Withheld (g : Global) (poll : Poll w) (netns : String) (stats : NetworkStats w)
    (s : Watch w (PeerCache w)) (e : GatewayEvent) : Prop :=
  (e, Delivery.refused) ∈ g.callAttempts poll netns s ∨
    (∃ chain t, (watchdog_netns g poll netns).run s = .error (.err chain) t) ∧
      ∃ x, e = .peerDisconnected stats.public_key x ∧ slot s.cache stats.listen_port x ≠ none ∧
        listed stats.peers x = none ∧
        attemptsAbout stats.public_key x (g.callAttempts poll netns s) = []

/-- The peer of a withheld event has its old cache entry after the call, and a second call with the
    same statistics and working sends sends the event. -/
def NotForgotten (g : Global) (poll : Poll w) (netns : String) (stats : NetworkStats w)
    (s : Watch w (PeerCache w)) : Prop :=
  ∀ e, Withheld g poll netns stats s e →
    slot (final ((watchdog_netns g poll netns).run s)).cache stats.listen_port e.peer =
        slot s.cache stats.listen_port e.peer ∧
      ∀ g' : Global, g'.build = g.build → (∀ n, g'.events_broadcast n ≠ .refused) →
        ∃ fate, (e, fate) ∈ g'.callAttempts poll netns (final ((watchdog_netns g poll netns).run s))

section
variable {g : Global} {poll : Poll w} {netns : String} {stats : NetworkStats w}
  {s : Watch w (PeerCache w)}

/-- A call works on the entry of its network's port, and writes it back however it ends. -/
theorem watchdog_netns_final (hst : poll.stats netns = .ok stats) :
    ∃ f, f = final ((watchdog_entry g stats (poll.clock stats.public_key)).run
        (s.at stats.listen_port)) ∧
      final ((watchdog_netns g poll netns).run s) =
        { f with cache := s.cache.insert stats.listen_port f.cache } := by
  refine ⟨_, rfl, ?_⟩
  rw [watchdog_netns, hst]
  simp only
  rw [atPort, zoom_run, ← Watch.at]
  cases (watchdog_entry g stats (poll.clock stats.public_key)).run (s.at stats.listen_port) <;> rfl

/-- An error of a call, its statistics being there, is one of its entry. -/
theorem watchdog_netns_error (hst : poll.stats netns = .ok stats) {e : Fail}
    {t : Watch w (PeerCache w)} (h : (watchdog_netns g poll netns).run s = .error e t) :
    ∃ f, (watchdog_entry g stats (poll.clock stats.public_key)).run (s.at stats.listen_port) =
      .error e f := by
  rw [watchdog_netns, hst] at h
  simp only at h
  rw [atPort, zoom_run, ← Watch.at] at h
  cases hrun : (watchdog_entry g stats (poll.clock stats.public_key)).run
      (s.at stats.listen_port) with
  | ok a f => simp [hrun] at h
  | error e' f =>
    simp only [hrun] at h
    cases h
    exact ⟨f, rfl⟩

theorem Watch.at_insert (f : Watch w (Entry w)) (cache : PeerCache w) (port : UInt16) :
    Watch.at { f with cache := cache.insert port f.cache } port = f := by
  simp [Watch.at]

theorem callAttempts_eq (hst : poll.stats netns = .ok stats) :
    g.callAttempts poll netns s =
      (final ((watchdog_entry g stats (poll.clock stats.public_key)).run
        (s.at stats.listen_port))).log.events.drop (s.at stats.listen_port).log.events.length := by
  obtain ⟨f, rfl, hfinal⟩ := watchdog_netns_final (g := g) (s := s) hst
  rw [Global.callAttempts, hfinal]
  rfl

theorem slot_insert (cache : PeerCache w) (port : UInt16) (entry : Entry w) (x : Pubkey) :
    slot (cache.insert port entry) port x = entry[x]? := by
  simp [slot]

/-- Every attempt of a sweep is of a dead peer that has lost its entry. -/
theorem SweepView.gone {dead : List Pubkey} {new : List (GatewayEvent × Delivery)}
    {t u : Watch w (Entry w)} (h : SweepView stats dead new t u) {a : GatewayEvent × Delivery}
    (ha : a ∈ new) :
    ∃ x ∈ dead, a.1 = .peerDisconnected stats.public_key x ∧ u.cache[x]? = none := by
  obtain ⟨x, hx, hax⟩ := h.events a ha
  refine ⟨x, hx, hax, ?_⟩
  rcases h.dead x hx with ⟨hgone, _⟩ | ⟨_, hnil, _⟩
  · exact hgone
  · have hmem : a ∈ attemptsAbout stats.public_key x new := List.mem_filter.mpr
      ⟨ha, by simp [hax, GatewayEvent.about, GatewayEvent.network, GatewayEvent.peer]⟩
    rw [hnil] at hmem
    cases hmem

/-- The sends of a call are those of its loop and those of its sweep. -/
theorem callAttempts_of_sweep (hst : poll.stats netns = .ok stats) {t : Watch w (Entry w)}
    (hloop : (watchdog_peers g stats (poll.clock stats.public_key) stats.peers).run
      (s.at stats.listen_port) = .ok () t) {dead : List Pubkey}
    {new : List (GatewayEvent × Delivery)}
    (hview : SweepView stats dead new t (final ((watchdog_entry g stats
      (poll.clock stats.public_key)).run (s.at stats.listen_port)))) :
    g.callAttempts poll netns s = t.log.events.drop s.log.events.length ++ new := by
  obtain ⟨⟨loop, hev, _⟩, _⟩ := watchdog_peers_onlyEvents g stats
    (poll.clock stats.public_key) stats.peers (s.at stats.listen_port)
  rw [hloop] at hev
  have hev : t.log.events = s.log.events ++ loop := hev
  rw [callAttempts_eq hst, hview.only.events, hev, List.append_assoc]
  simp [Watch.at]

/-- A refused send of a listed peer is not forgotten. -/
theorem listed_not_forgotten (hst : poll.stats netns = .ok stats)
    (hnd : (stats.peers.map (·.public_key)).Nodup) {f t : Watch w (Entry w)}
    (hf : f = final ((watchdog_entry g stats (poll.clock stats.public_key)).run
      (s.at stats.listen_port)))
    (ht : t = final ((watchdog_peers g stats (poll.clock stats.public_key) stats.peers).run
      (s.at stats.listen_port)))
    (hkept : ∀ y ∈ stats.peers.map (·.public_key), f.cache[y]? = t.cache[y]?) {e : GatewayEvent}
    (he : (e, Delivery.refused) ∈ t.log.events.drop s.log.events.length) :
    slot (final ((watchdog_netns g poll netns).run s)).cache stats.listen_port e.peer =
        slot s.cache stats.listen_port e.peer ∧
      ∀ g' : Global, g'.build = g.build → (∀ n, g'.events_broadcast n ≠ .refused) →
        ∃ fate, (e, fate) ∈
          g'.callAttempts poll netns (final ((watchdog_netns g poll netns).run s)) := by
  obtain ⟨f', rfl, hfinal⟩ := watchdog_netns_final (g := g) (s := s) hst
  rw [← hf] at hfinal
  have hloop : ∀ g' : Global, g'.build = g.build → (∀ n, g'.events_broadcast n ≠ .refused) →
      t.cache[e.peer]? = (s.at stats.listen_port).cache[e.peer]? ∧
        e.peer ∈ stats.peers.map (·.public_key) ∧
        ∃ new' fate, (e, fate) ∈ new' ∧ (final ((watchdog_peers g' stats
          (poll.clock stats.public_key) stats.peers).run f)).log.events = f.log.events ++ new' := by
    intro g' hb hg
    obtain ⟨new, t', ht', hev, habout, _, hrefused⟩ := peers_resend stats
      (poll.clock stats.public_key) hb hg (s := s.at stats.listen_port) hnd
    obtain rfl : t = t' := ht.trans ht'
    have he' : (e, Delivery.refused) ∈ new := by
      rw [hev] at he
      simpa [Watch.at] using he
    obtain ⟨hcache, hagain⟩ := hrefused e he'
    exact ⟨hcache, (habout _ he').2, hagain f fun p hp => hkept _ (List.mem_map_of_mem hp)⟩
  constructor
  · obtain ⟨hcache, hmem, _⟩ := hloop { g with events_broadcast := fun _ => .delivered } rfl
      fun _ => Delivery.noConfusion
    rw [hfinal, slot_insert, ← slot_getD, hkept _ hmem, hcache]
    rfl
  · intro g' hb hg
    obtain ⟨_, _, new', fate, hsent, hlog⟩ := hloop g' hb hg
    obtain ⟨more, hmore⟩ := watchdog_entry_log g' stats
      (poll.clock stats.public_key) f
    refine ⟨fate, ?_⟩
    rw [callAttempts_eq hst, hfinal, Watch.at_insert, hmore, hlog, List.append_assoc]
    simp [hsent]

end

/-- An interrupted call forgets no event if and only if one of the listed peers makes it panic or
    every send of its sweep finds a subscriber. -/
theorem not_forgotten_iff (g : Global) (poll : Poll w) (netns : String) (stats : NetworkStats w)
    (s : Watch w (PeerCache w)) (hst : poll.stats netns = .ok stats)
    (hnd : (stats.peers.map (·.public_key)).Nodup) :
    NotForgotten g poll netns stats s ↔
      (∃ p ∈ stats.peers,
        g.Crashes (poll.clock stats.public_key) (s.at stats.listen_port).cache p) ∨
      g.SweepHeard stats (poll.clock stats.public_key) (s.at stats.listen_port) := by
  by_cases hcrash : ∃ p ∈ stats.peers,
      g.Crashes (poll.clock stats.public_key) (s.at stats.listen_port).cache p
  · -- a panic in the loop: there is no sweep, and no error
    refine ⟨fun _ => Or.inl hcrash, fun _ e he => ?_⟩
    obtain ⟨reason, t, hloop⟩ := watchdog_peers_crash stats hnd hcrash
    have hentry : (watchdog_entry g stats (poll.clock stats.public_key)).run
        (s.at stats.listen_port) = .error (.panic reason) t := by
      rw [watchdog_entry, bind_of_error hloop]
    rcases he with he | ⟨⟨chain, u, herr⟩, _⟩
    · rw [callAttempts_eq hst, hentry] at he
      exact listed_not_forgotten hst hnd (f := t) (t := t) (by rw [hentry]; rfl)
        (by rw [hloop]; rfl) (fun _ _ => rfl) he
    · obtain ⟨f, hf⟩ := watchdog_netns_error hst herr
      rw [hentry] at hf
      cases hf
  · have hcalm : ∀ p ∈ stats.peers, ¬g.Crashes (poll.clock stats.public_key)
        (s.at stats.listen_port).cache p := fun p hp h => hcrash ⟨p, hp, h⟩
    obtain ⟨t, hloop, hentry, hother, hheard⟩ := watchdog_entry_calm hnd hcalm
    obtain ⟨hview, hreturns⟩ := watchdog_sweep_attempts (g := g) (deadPeers_nodup stats t) t
    rw [← hentry] at hview hreturns
    have hcall := callAttempts_of_sweep hst hloop hview
    rw [or_iff_right hcrash, hheard]
    constructor
    · -- the peer of a refused send of the sweep has lost its cache entry
      intro h
      by_contra hna
      obtain ⟨a, ha, href⟩ : ∃ a ∈ g.attempts t.log.events.length
          ((deadPeers stats t).map (.peerDisconnected stats.public_key)), a.2 = .refused := by
        simpa [Accepted] using hna
      obtain ⟨x, hx, hax, hgone⟩ := hview.gone ha
      obtain ⟨hslot, _⟩ := h (.peerDisconnected stats.public_key x) (Or.inl (by
        rw [hcall, ← hax, ← href]
        exact List.mem_append_right _ ha))
      obtain ⟨⟨p, hp⟩, hl⟩ := (mem_deadPeers stats).mp hx
      rw [hother x (listed_none_iff.mp hl)] at hp
      obtain ⟨f, rfl, hfinal⟩ := watchdog_netns_final (g := g) (s := s) hst
      rw [hfinal, slot_insert, ← slot_getD] at hslot
      exact Option.some_ne_none p (hp.symm.trans (hslot.symm.trans hgone))
    · intro hacc e he
      rcases he with he | ⟨⟨chain, u, herr⟩, _⟩
      · rw [hcall, List.mem_append] at he
        refine listed_not_forgotten hst hnd (t := t) rfl (by rw [hloop]; rfl) (fun y hy => ?_) ?_
        · exact hview.alive y fun hd =>
            listed_none_iff.mp ((mem_deadPeers stats).mp hd).2 hy
        · exact he.resolve_right fun h => hacc _ h rfl
      · obtain ⟨f, hf⟩ := watchdog_netns_error hst herr
        have hok := hreturns hacc
        rw [hf] at hok
        cases hok

/-- Nobody is subscribed at the first send of a poll. -/
def Sample.deaf : Global :=
  ⟨.release, fun n => if n = 0 then .refused else .delivered, fun _ => .delivered⟩

/-- A peer that is connected. -/
def Sample.known : Watch 64 (PeerCache 64) where
  traffic := TrafficInfo.new 0
  cache := (∅ : PeerCache 64).insert 5000 (Sample.cached (Sample.peer 8 (some 90) 0)).cache
  log := ⟨[], []⟩

/-- One peer comes, which is the send that is refused, and another one has left. -/
theorem not_forgotten_listed :
    NotForgotten Sample.deaf
      (Sample.poll 100 [("network-5000", Sample.stats 1 5000 [Sample.peer 7 (some 90) 0])])
      "network-5000" (Sample.stats 1 5000 [Sample.peer 7 (some 90) 0]) Sample.known := by
  refine (not_forgotten_iff Sample.deaf _ "network-5000" _ Sample.known rfl (by decide)).mpr
    (Or.inr fun i _ => ?_)
  have hlen : (Sample.deaf.loopAttempts ⟨1⟩ (fun _ => Sample.clock 100) (Sample.known.at 5000).cache
      0 [Sample.peer 7 (some 90) 0]).length = 1 := by decide
  show (if 0 + (Sample.deaf.loopAttempts ⟨1⟩ (fun _ => Sample.clock 100)
    (Sample.known.at 5000).cache 0 [Sample.peer 7 (some 90) 0]).length + i = 0 then Delivery.refused
      else Delivery.delivered) ≠ .refused
  rw [hlen, if_neg (by omega)]
  exact Delivery.noConfusion

/-- A peer has left and nobody is subscribed: its entry is gone, and nothing was announced. -/
theorem forgotten_after_sweep :
    ¬NotForgotten Sample.deaf (Sample.poll 100 [("network-5000", Sample.stats 1 5000 [])])
      "network-5000" (Sample.stats 1 5000 []) Sample.known := by
  intro h
  have hslot := (h (.peerDisconnected ⟨1⟩ ⟨8⟩) (Or.inl (by decide))).1
  revert hslot
  decide

end FractalGateway
