import FractalGateway.Watchdog.Model

/-! What one peer's step can do, said once.

    The step makes at most one addition to the report, attempts the events of `announce` in order
    until one is refused, and remembers the peer only when none was. `PeerStep` lists the ways it
    can end; `watchdog_peer_step` shows that these are all of them, and every later result about
    polls is read off that list. -/

namespace FractalGateway
open Std Exec

variable {w : ℕ} {κ : Type}

/-! ### Sends in a row -/

/-- The attempts made for a list of events: up to the first refused one. -/
def Global.attempts (g : Global) : ℕ → List GatewayEvent → List (GatewayEvent × Delivery)
  | _, [] => []
  | n, e :: es =>
    (e, g.events_broadcast n) ::
      if g.events_broadcast n = .refused then [] else g.attempts (n + 1) es

/-- No attempt was refused. -/
def Accepted (l : List (GatewayEvent × Delivery)) : Prop := ∀ a ∈ l, a.2 ≠ .refused

instance (l : List (GatewayEvent × Delivery)) : Decidable (Accepted l) :=
  inferInstanceAs (Decidable (∀ a ∈ l, a.2 ≠ Delivery.refused))

@[simp] theorem accepted_nil : Accepted [] := by simp [Accepted]

@[simp] theorem accepted_cons {a : GatewayEvent × Delivery} {l : List (GatewayEvent × Delivery)} :
    Accepted (a :: l) ↔ a.2 ≠ .refused ∧ Accepted l := List.forall_mem_cons

theorem accepted_append {a b : List (GatewayEvent × Delivery)} :
    Accepted (a ++ b) ↔ Accepted a ∧ Accepted b := by
  simp only [Accepted, List.mem_append, or_imp, forall_and]

theorem Accepted.of_prefix {a b : List (GatewayEvent × Delivery)} (h : a <+: b) (hb : Accepted b) :
    Accepted a := by
  obtain ⟨c, rfl⟩ := h
  exact (accepted_append.mp hb).1

/-- Attempts added to the log. -/
def Watch.sent (s : Watch w κ) (l : List (GatewayEvent × Delivery)) : Watch w κ :=
  { s with log := { s.log with events := s.log.events ++ l } }

@[simp] theorem Watch.sent_traffic (s : Watch w κ) (l) : (s.sent l).traffic = s.traffic := rfl
@[simp] theorem Watch.sent_cache (s : Watch w κ) (l) : (s.sent l).cache = s.cache := rfl
@[simp] theorem Watch.sent_events (s : Watch w κ) (l) :
    (s.sent l).log.events = s.log.events ++ l := rfl
@[simp] theorem Watch.sent_reports (s : Watch w κ) (l) :
    (s.sent l).log.traffic = s.log.traffic := rfl
@[simp] theorem Watch.sent_nil (s : Watch w κ) : s.sent [] = s := by simp [Watch.sent]
theorem Watch.sent_sent (s : Watch w κ) (a b) : (s.sent a).sent b = s.sent (a ++ b) := by
  simp [Watch.sent]

theorem Global.event_eq (g : Global) (e : GatewayEvent) (s : Watch w κ) :
    (g.event e).run s =
      if g.events_broadcast s.log.events.length = .refused then
        .error (.err ["channel closed"]) (s.sent [(e, .refused)])
      else .ok () (s.sent [(e, g.events_broadcast s.log.events.length)]) := by
  by_cases h : g.events_broadcast s.log.events.length = .refused <;>
    simp [Global.event, EStateM.run, Watch.sent, h]

/-- Sending a list of events, stopping at the first refusal. -/
theorem Global.forM_event (g : Global) : ∀ (events : List GatewayEvent) (s : Watch w κ),
    (forM events (fun e => g.event e)).run s =
      if Accepted (g.attempts s.log.events.length events) then
        .ok () (s.sent (g.attempts s.log.events.length events))
      else .error (.err ["channel closed"]) (s.sent (g.attempts s.log.events.length events))
  | [], s => by
      simp only [List.forM_nil, Global.attempts, Watch.sent_nil]
      rfl
  | e :: es, s => by
      rw [List.forM_cons]
      have he := g.event_eq e s
      by_cases h : g.events_broadcast s.log.events.length = .refused
      · rw [if_pos h] at he
        rw [bind_of_error he]
        simp [Global.attempts, h]
      · rw [if_neg h] at he
        rw [bind_of_ok he, Global.forM_event g es]
        have hlen : (s.sent [(e, g.events_broadcast s.log.events.length)]).log.events.length =
            s.log.events.length + 1 := by simp
        rw [hlen, Watch.sent_sent]
        simp [Global.attempts, h]

/-- When nothing is refused every event was attempted. -/
theorem Global.attempts_fst (g : Global) : ∀ (n : ℕ) (events : List GatewayEvent),
    Accepted (g.attempts n events) → (g.attempts n events).map Prod.fst = events
  | _, [], _ => rfl
  | n, e :: es, h => by
      by_cases hr : g.events_broadcast n = .refused
      · simp [Global.attempts, hr] at h
      · rw [Global.attempts, if_neg hr, accepted_cons] at h
        rw [Global.attempts, if_neg hr, List.map_cons, Global.attempts_fst g (n + 1) es h.2]

/-- Every attempt is one of the events. -/
theorem Global.attempts_mem (g : Global) : ∀ (n : ℕ) (events : List GatewayEvent),
    ∀ a ∈ g.attempts n events, a.1 ∈ events
  | _, [], _, ha => by simp [Global.attempts] at ha
  | n, e :: es, a, ha => by
      rw [Global.attempts, List.mem_cons] at ha
      rcases ha with rfl | ha
      · exact List.mem_cons_self
      · split at ha
        · simp at ha
        · exact List.mem_cons_of_mem _ (g.attempts_mem (n + 1) es a ha)

/-- Every attempt has a fate of the channel. -/
theorem Global.attempts_fate (g : Global) : ∀ (n : ℕ) (events : List GatewayEvent),
    ∀ a ∈ g.attempts n events, ∃ m, a.2 = g.events_broadcast m
  | _, [], _, ha => by simp [Global.attempts] at ha
  | n, e :: es, a, ha => by
      rw [Global.attempts, List.mem_cons] at ha
      rcases ha with rfl | ha
      · exact ⟨n, rfl⟩
      · split at ha
        · simp at ha
        · exact g.attempts_fate (n + 1) es a ha

/-! ### The parts of a step -/

/-- The traffic a peer adds to the report, given what was cached: nothing when a counter went back
    or when the wrapped difference of the counters is zero. -/
def bill (previous peer : PeerStats w) : Option (Traffic w) :=
  if peer.transfer_rx < previous.transfer_rx ∨ peer.transfer_tx < previous.transfer_tx then none
  else if 0 < (previous.transfer_rx - peer.transfer_rx) + (previous.transfer_tx - peer.transfer_tx)
  then some ⟨peer.transfer_rx - previous.transfer_rx, peer.transfer_tx - previous.transfer_tx⟩
  else none

/-- A debug build panics on the reversed subtraction as soon as a counter has grown. -/
def Global.Overflows (g : Global) (previous peer : PeerStats w) : Prop :=
  g.build = .debug ∧
    ¬(peer.transfer_rx < previous.transfer_rx ∨ peer.transfer_tx < previous.transfer_tx) ∧
    (peer.transfer_rx ≠ previous.transfer_rx ∨ peer.transfer_tx ≠ previous.transfer_tx)

/-- The second of the report's entry. -/
def Clock.secs (clock : Clock) : BitVec w :=
  BitVec.ofNat w (as_secs ((clock.time.duration_since UNIX_EPOCH).getD 0))

/-- The report after a peer's step. -/
def Watch.billed (s : Watch w κ) (k : Pubkey) (time : BitVec w) (previous : Option (PeerStats w))
    (peer : PeerStats w) : Watch w κ :=
  match previous.bind (bill · peer) with
  | some traffic => { s with traffic := s.traffic.add k peer.public_key time traffic }
  | none => s

@[simp] theorem Watch.billed_cache (s : Watch w κ) (k time previous peer) :
    (s.billed k time previous peer).cache = s.cache := by
  unfold Watch.billed; split <;> rfl
@[simp] theorem Watch.billed_log (s : Watch w κ) (k time previous peer) :
    (s.billed k time previous peer).log = s.log := by
  unfold Watch.billed; split <;> rfl
@[simp] theorem Watch.billed_none (s : Watch w κ) (k time peer) :
    s.billed k time none peer = s := rfl

/-- What a peer's step announces before it would need an endpoint that is not there. -/
def announce (k : Pubkey) (previous : Option (PeerStats w)) (peer : PeerStats w) :
    List GatewayEvent :=
  let connected := peer.endpoint.toList.map (.peerConnected k peer.public_key)
  match previous with
  | none => if peer.latest_handshake.isSome then connected else []
  | some previous =>
    (if peer.endpoint ≠ previous.endpoint then
      peer.endpoint.toList.map (.endpoint k peer.public_key) else []) ++
    match previous.latest_handshake, peer.latest_handshake with
    | some _, none => [.peerDisconnected k peer.public_key]
    | none, some _ => connected
    | _, _ => []

/-- The step needs an endpoint to announce a connection and has none. -/
def Unannounceable (previous : Option (PeerStats w)) (peer : PeerStats w) : Prop :=
  peer.latest_handshake.isSome ∧ peer.endpoint = none ∧
    previous.bind (·.latest_handshake) = none

@[simp] theorem PeerStats.expire_public_key (peer : PeerStats w) (now : SystemTime) :
    (peer.expire now).public_key = peer.public_key := by
  unfold PeerStats.expire; repeat' split
  all_goals rfl
@[simp] theorem PeerStats.expire_endpoint (peer : PeerStats w) (now : SystemTime) :
    (peer.expire now).endpoint = peer.endpoint := by
  unfold PeerStats.expire; repeat' split
  all_goals rfl
@[simp] theorem PeerStats.expire_transfer_rx (peer : PeerStats w) (now : SystemTime) :
    (peer.expire now).transfer_rx = peer.transfer_rx := by
  unfold PeerStats.expire; repeat' split
  all_goals rfl
@[simp] theorem PeerStats.expire_transfer_tx (peer : PeerStats w) (now : SystemTime) :
    (peer.expire now).transfer_tx = peer.transfer_tx := by
  unfold PeerStats.expire; repeat' split
  all_goals rfl

/-- Every announcement is about the peer. -/
theorem announce_about (k : Pubkey) (previous : Option (PeerStats w)) (peer : PeerStats w) :
    ∀ e ∈ announce k previous peer, e.network = k ∧ e.peer = peer.public_key := by
  intro e he
  cases previous with
  | none =>
    simp only [announce] at he
    split at he
    · obtain ⟨a, _, rfl⟩ := List.mem_map.mp he
      exact ⟨rfl, rfl⟩
    · simp at he
  | some previous =>
    rcases List.mem_append.mp he with he | he
    · split at he
      · obtain ⟨a, _, rfl⟩ := List.mem_map.mp he
        exact ⟨rfl, rfl⟩
      · simp at he
    · split at he
      · obtain rfl := List.mem_singleton.mp he
        exact ⟨rfl, rfl⟩
      · obtain ⟨a, _, rfl⟩ := List.mem_map.mp he
        exact ⟨rfl, rfl⟩
      · simp at he

instance (previous : Option (PeerStats w)) (peer : PeerStats w) :
    Decidable (Unannounceable previous peer) :=
  inferInstanceAs (Decidable (_ ∧ _ ∧ _))

theorem Global.sub_eq (g : Global) {x y : BitVec w} (h : ¬(g.build = .debug ∧ x < y))
    (s : Watch w κ) : (g.sub x y).run s = .ok (x - y) s := by
  rw [Global.sub, if_neg h]
  rfl

theorem Global.add_eq (g : Global) {x y : BitVec w}
    (h : ¬(g.build = .debug ∧ 2 ^ w ≤ x.toNat + y.toNat)) (s : Watch w κ) :
    (g.add x y).run s = .ok (x + y) s := by
  rw [Global.add, if_neg h]
  rfl

theorem Global.sub_overflow (g : Global) {x y : BitVec w} (h : g.build = .debug ∧ x < y)
    (s : Watch w κ) : (g.sub x y).run s = .error (.panic "attempt to subtract with overflow") s := by
  rw [Global.sub, if_pos h]
  rfl

/-- The accounting part of a step, when it does not overflow. -/
theorem watchdog_traffic_eq (g : Global) (stats : NetworkStats w) (time : BitVec w)
    {previous peer : PeerStats w} (h : ¬g.Overflows previous peer) (s : Watch w (Entry w)) :
    (watchdog_traffic g stats time previous peer).run s =
      .ok () (s.billed stats.public_key time (some previous) peer) := by
  unfold watchdog_traffic
  by_cases hdec : peer.transfer_rx < previous.transfer_rx ∨ peer.transfer_tx < previous.transfer_tx
  · rw [if_pos hdec]
    simp only [Watch.billed, Option.bind_some, bill, if_pos hdec]
    rfl
  · rw [if_neg hdec]
    have hle := not_or.mp hdec
    -- a debug build gets here only with both counters unchanged
    have heq : g.build = .debug →
        peer.transfer_rx = previous.transfer_rx ∧ peer.transfer_tx = previous.transfer_tx := by
      intro hb
      by_contra hne
      exact h ⟨hb, hdec, by tauto⟩
    have h1 : ¬(g.build = .debug ∧ previous.transfer_rx < peer.transfer_rx) := by
      rintro ⟨hb, hlt⟩
      rw [(heq hb).1] at hlt
      exact absurd hlt (BitVec.lt_irrefl _)
    have h2 : ¬(g.build = .debug ∧ previous.transfer_tx < peer.transfer_tx) := by
      rintro ⟨hb, hlt⟩
      rw [(heq hb).2] at hlt
      exact absurd hlt (BitVec.lt_irrefl _)
    have h3 : ¬(g.build = .debug ∧ 2 ^ w ≤ (previous.transfer_rx - peer.transfer_rx).toNat +
        (previous.transfer_tx - peer.transfer_tx).toNat) := by
      rintro ⟨hb, hlt⟩
      rw [(heq hb).1, (heq hb).2] at hlt
      simp at hlt
    rw [bind_of_ok (g.sub_eq h1 s), bind_of_ok (g.sub_eq h2 s), bind_of_ok (g.add_eq h3 s)]
    by_cases hd : 0 < (previous.transfer_rx - peer.transfer_rx) +
        (previous.transfer_tx - peer.transfer_tx)
    · rw [if_pos hd, bind_of_ok (g.sub_eq (fun hb => hle.1 hb.2) s),
        bind_of_ok (g.sub_eq (fun hb => hle.2 hb.2) s)]
      simp only [Watch.billed, Option.bind_some, bill, if_neg hdec, if_pos hd]
      rfl
    · rw [if_neg hd]
      simp only [Watch.billed, Option.bind_some, bill, if_neg hdec, if_neg hd]
      rfl

/-- The accounting part of a step, when it does. -/
theorem watchdog_traffic_overflow (g : Global) (stats : NetworkStats w) (time : BitVec w)
    {previous peer : PeerStats w} (h : g.Overflows previous peer) (s : Watch w (Entry w)) :
    (watchdog_traffic g stats time previous peer).run s =
      .error (.panic "attempt to subtract with overflow") s := by
  obtain ⟨hb, hdec, hne⟩ := h
  have hle := not_or.mp hdec
  unfold watchdog_traffic
  rw [if_neg hdec]
  by_cases hrx : previous.transfer_rx < peer.transfer_rx
  · exact bind_of_error (g.sub_overflow ⟨hb, hrx⟩ s)
  · have hrx' : peer.transfer_rx = previous.transfer_rx :=
      BitVec.le_antisymm (BitVec.not_lt.mp hrx) (BitVec.not_lt.mp hle.1)
    have htx : previous.transfer_tx < peer.transfer_tx := by
      by_contra hlt
      exact (hne.resolve_left (not_not.mpr hrx'))
        (BitVec.le_antisymm (BitVec.not_lt.mp hlt) (BitVec.not_lt.mp hle.2))
    rw [bind_of_ok (g.sub_eq (fun h => hrx h.2) s)]
    exact bind_of_error (g.sub_overflow ⟨hb, htx⟩ s)

theorem watchdog_endpoint_eq (g : Global) (stats : NetworkStats w) (previous peer : PeerStats w) :
    watchdog_endpoint g stats previous peer =
      forM (if peer.endpoint ≠ previous.endpoint then
        peer.endpoint.toList.map (.endpoint stats.public_key peer.public_key) else [])
        (fun e => g.event e) := by
  unfold watchdog_endpoint
  split
  · cases peer.endpoint <;> simp
  · simp

theorem watchdog_connected_eq (g : Global) (stats : NetworkStats w) (peer : PeerStats w) :
    watchdog_connected g stats peer = (do
      forM (peer.endpoint.toList.map (.peerConnected stats.public_key peer.public_key))
        (fun e => g.event e)
      if peer.endpoint = none then throw unwrapPanic else pure ()) := by
  unfold watchdog_connected
  cases peer.endpoint with
  | none => rfl
  | some addr => simp [unwrap]

/-- The announcing part of a cached peer's step: the events in order, then the missing endpoint. -/
theorem watchdog_announce_eq (g : Global) (stats : NetworkStats w) (previous peer : PeerStats w) :
    (do watchdog_endpoint g stats previous peer; watchdog_handshake g stats previous peer) = (do
      forM (announce stats.public_key (some previous) peer) (fun e => g.event e)
      if Unannounceable (some previous) peer then throw unwrapPanic else pure ()) := by
  rw [watchdog_endpoint_eq, announce, List.forM_append]
  rcases Option.eq_none_or_eq_some previous.latest_handshake with hp | ⟨t, hp⟩ <;>
    rcases Option.eq_none_or_eq_some peer.latest_handshake with hq | ⟨t', hq⟩ <;>
    simp [watchdog_handshake, Unannounceable, hp, hq, watchdog_connected_eq]

/-- The announcing part of a new peer's step. -/
theorem watchdog_announce_new (g : Global) (stats : NetworkStats w) (peer : PeerStats w) :
    (if peer.latest_handshake.isSome then watchdog_connected g stats peer else pure ()) = (do
      forM (announce stats.public_key none peer) (fun e => g.event e)
      if Unannounceable none peer then throw unwrapPanic else pure ()) := by
  rcases Option.eq_none_or_eq_some peer.latest_handshake with hq | ⟨t, hq⟩ <;>
    simp [announce, Unannounceable, hq, watchdog_connected_eq]

/-! ### The step -/

section
variable (g : Global) (stats : NetworkStats w) (clock : Clock) (peer : PeerStats w)
  (s : Watch w (Entry w))

/-- The state with the peer's traffic reported. -/
def Watch.reported : Watch w (Entry w) :=
  s.billed stats.public_key clock.secs s.cache[peer.public_key]? (peer.expire clock.now)

/-- The sends the step attempts. -/
def Global.peerAttempts : List (GatewayEvent × Delivery) :=
  g.attempts s.log.events.length
    (announce stats.public_key s.cache[peer.public_key]? (peer.expire clock.now))

/-- The ways a peer's step can end. -/
inductive PeerStep : EStateM.Result Fail (Watch w (Entry w)) Unit → Prop
  | clock {previous : PeerStats w} (chain : List String)
      (hp : s.cache[peer.public_key]? = some previous)
      (ht : clock.time.duration_since UNIX_EPOCH = none) : PeerStep (.error (.err chain) s)
  | overflow {previous : PeerStats w} (reason : String)
      (hp : s.cache[peer.public_key]? = some previous)
      (ho : g.Overflows previous (peer.expire clock.now)) : PeerStep (.error (.panic reason) s)
  | refused (chain : List String) (ha : ¬Accepted (g.peerAttempts stats clock peer s)) :
      PeerStep (.error (.err chain)
        ((s.reported stats clock peer).sent (g.peerAttempts stats clock peer s)))
  | unwrap (reason : String) (ha : Accepted (g.peerAttempts stats clock peer s))
      (hu : Unannounceable s.cache[peer.public_key]? (peer.expire clock.now)) :
      PeerStep (.error (.panic reason)
        ((s.reported stats clock peer).sent (g.peerAttempts stats clock peer s)))
  | done (ha : Accepted (g.peerAttempts stats clock peer s))
      (hu : ¬Unannounceable s.cache[peer.public_key]? (peer.expire clock.now))
      (ht : s.cache[peer.public_key]? = none ∨ clock.time.duration_since UNIX_EPOCH ≠ none) :
      PeerStep (.ok () (Watch.remember (peer.expire clock.now)
        ((s.reported stats clock peer).sent (g.peerAttempts stats clock peer s))))

/-- The announcements of a step, then the panic on a missing endpoint. -/
def Global.announcing : EStateM Fail (Watch w (Entry w)) Unit := do
  forM (announce stats.public_key s.cache[peer.public_key]? (peer.expire clock.now))
    (fun e => g.event e)
  if Unannounceable s.cache[peer.public_key]? (peer.expire clock.now) then throw unwrapPanic
  else pure ()

/-- Announcing and remembering, from the state with the traffic reported. -/
theorem peerStep_announcing
    (ht : s.cache[peer.public_key]? = none ∨ clock.time.duration_since UNIX_EPOCH ≠ none) :
    PeerStep g stats clock peer s
      ((do g.announcing stats clock peer s; modify (Watch.remember (peer.expire clock.now))).run
        (s.reported stats clock peer)) := by
  have hlog : (s.reported stats clock peer).log = s.log := Watch.billed_log ..
  have hsend := g.forM_event
    (announce stats.public_key s.cache[peer.public_key]? (peer.expire clock.now))
    (s.reported stats clock peer)
  rw [hlog, ← Global.peerAttempts] at hsend
  unfold Global.announcing
  by_cases ha : Accepted (g.peerAttempts stats clock peer s)
  · rw [if_pos ha] at hsend
    by_cases hu : Unannounceable s.cache[peer.public_key]? (peer.expire clock.now)
    · rw [if_pos hu, bind_of_error (by rw [bind_of_ok hsend]; rfl)]
      exact PeerStep.unwrap _ ha hu
    · rw [if_neg hu, bind_of_ok (a := ()) (by rw [bind_of_ok hsend]; rfl)]
      exact PeerStep.done ha hu ht
  · rw [if_neg ha] at hsend
    rw [bind_of_error (bind_of_error hsend)]
    exact PeerStep.refused _ ha

/-- A cached peer is not looked at while the clock stands before the epoch. -/
theorem watchdog_peer_stale {previous : PeerStats w} (hp : s.cache[peer.public_key]? = some previous)
    (ht : clock.time.duration_since UNIX_EPOCH = none) :
    (watchdog_peer g stats clock peer).run s =
      .error (.err ["second time provided was later than self"]) s := by
  have hget : (get : EStateM Fail (Watch w (Entry w)) _).run s = .ok s s := rfl
  have hsecs : (clock.unix_secs : EStateM Fail (Watch w (Entry w)) (BitVec w)).run s =
      .error (.err ["second time provided was later than self"]) s := by
    rw [Clock.unix_secs, ht]; rfl
  rw [watchdog_peer, watchdog_compare, bind_assoc, bind_of_ok hget, PeerStats.expire_public_key, hp]
  exact bind_of_error (bind_of_error hsecs)

/-- A cached peer, once the clock is read: the accounting, the announcements, and the cache. -/
theorem watchdog_peer_cached {previous : PeerStats w}
    (hp : s.cache[peer.public_key]? = some previous)
    (ht : clock.time.duration_since UNIX_EPOCH ≠ none) :
    (watchdog_peer g stats clock peer).run s = (do
      watchdog_traffic g stats clock.secs previous (peer.expire clock.now)
      watchdog_endpoint g stats previous (peer.expire clock.now)
      watchdog_handshake g stats previous (peer.expire clock.now)
      modify (Watch.remember (peer.expire clock.now))).run s := by
  have hget : (get : EStateM Fail (Watch w (Entry w)) _).run s = .ok s s := rfl
  obtain ⟨duration, hd⟩ := Option.ne_none_iff_exists'.mp ht
  have hsecs : (clock.unix_secs : EStateM Fail (Watch w (Entry w)) (BitVec w)).run s =
      .ok clock.secs s := by
    rw [Clock.unix_secs, Clock.secs, hd]; rfl
  rw [watchdog_peer, watchdog_compare, bind_assoc, bind_of_ok hget, PeerStats.expire_public_key, hp]
  simp only [bind_assoc]
  rw [bind_of_ok hsecs]

theorem watchdog_peer_overflow {previous : PeerStats w}
    (hp : s.cache[peer.public_key]? = some previous)
    (ht : clock.time.duration_since UNIX_EPOCH ≠ none)
    (ho : g.Overflows previous (peer.expire clock.now)) :
    (watchdog_peer g stats clock peer).run s =
      .error (.panic "attempt to subtract with overflow") s := by
  rw [watchdog_peer_cached g stats clock peer s hp ht]
  exact bind_of_error (watchdog_traffic_overflow g stats _ ho s)

/-- Without an overflow the traffic is reported, and then come the announcements. -/
theorem watchdog_peer_announcing
    (ht : s.cache[peer.public_key]? = none ∨ clock.time.duration_since UNIX_EPOCH ≠ none)
    (ho : ∀ previous, s.cache[peer.public_key]? = some previous →
      ¬g.Overflows previous (peer.expire clock.now)) :
    (watchdog_peer g stats clock peer).run s =
      (do g.announcing stats clock peer s; modify (Watch.remember (peer.expire clock.now))).run
        (s.reported stats clock peer) := by
  cases hp : s.cache[peer.public_key]? with
  | none =>
    have hget : (get : EStateM Fail (Watch w (Entry w)) _).run s = .ok s s := rfl
    rw [Global.announcing, Watch.reported, hp, Watch.billed_none, ← watchdog_announce_new,
      watchdog_peer, watchdog_compare, bind_assoc, bind_of_ok hget, PeerStats.expire_public_key, hp]
  | some previous =>
    rw [watchdog_peer_cached g stats clock peer s hp (ht.resolve_left (by simp [hp])),
      bind_of_ok (watchdog_traffic_eq g stats _ (ho previous hp) s), ← bind_assoc,
      watchdog_announce_eq, Global.announcing, Watch.reported, hp]

/-- One peer's step ends in one of these ways. -/
theorem watchdog_peer_step :
    PeerStep g stats clock peer s ((watchdog_peer g stats clock peer).run s) := by
  cases hp : s.cache[peer.public_key]? with
  | none =>
    rw [watchdog_peer_announcing g stats clock peer s (Or.inl hp) (by simp [hp])]
    exact peerStep_announcing g stats clock peer s (Or.inl hp)
  | some previous =>
    by_cases ht : clock.time.duration_since UNIX_EPOCH = none
    · rw [watchdog_peer_stale g stats clock peer s hp ht]
      exact PeerStep.clock _ hp ht
    · by_cases ho : g.Overflows previous (peer.expire clock.now)
      · rw [watchdog_peer_overflow g stats clock peer s hp ht ho]
        exact PeerStep.overflow _ hp ho
      · rw [watchdog_peer_announcing g stats clock peer s (Or.inr ht) (by simpa [hp] using ho)]
        exact peerStep_announcing g stats clock peer s (Or.inr ht)

/-- Without an overflow a step can only panic for want of an endpoint. -/
theorem watchdog_peer_panic
    (ho : ∀ previous, s.cache[peer.public_key]? = some previous →
      ¬g.Overflows previous (peer.expire clock.now)) {reason : String} {s' : Watch w (Entry w)}
    (h : (watchdog_peer g stats clock peer).run s = .error (.panic reason) s') :
    Fail.panic reason = unwrapPanic := by
  by_cases ht : s.cache[peer.public_key]? = none ∨ clock.time.duration_since UNIX_EPOCH ≠ none
  · rw [watchdog_peer_announcing g stats clock peer s ht ho, Global.announcing] at h
    have hsend := g.forM_event
      (announce stats.public_key s.cache[peer.public_key]? (peer.expire clock.now))
      (s.reported stats clock peer)
    split at hsend
    · rw [bind_assoc, bind_of_ok hsend] at h
      split at h
      · cases h
        rfl
      · cases h
    · rw [bind_of_error (bind_of_error hsend)] at h
      cases h
  · rw [not_or, not_not] at ht
    obtain ⟨previous, hp⟩ := Option.ne_none_iff_exists'.mp ht.1
    rw [watchdog_peer_stale g stats clock peer s hp ht.2] at h
    cases h

end

end FractalGateway
