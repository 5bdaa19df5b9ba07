import FractalGateway.Client.Totals
import FractalGateway.Watchdog.Connectivity

/-! The reports of a run: one for every poll that listed the namespaces, made from that poll.

    A report is what `TrafficInfo::add` makes of the calls of one poll, and a poll makes at most one
    call for every peer it finds listed, in the order of the listing, with a reading of its own
    clock and never more than the peer's counters show. Refused sends, failed fetches and a wrong
    clock cost no report. Only a panic ends the reports, and in a release build the one panic left is
    the missing endpoint of a peer that has shaken hands. -/

namespace FractalGateway
open Std Exec

variable {w : ℕ}

/-! ### The calls of a poll -/

/-- The peers a poll finds, each with its network, in order. -/
def Poll.listings (poll : Poll w) : List (NetworkStats w × PeerStats w) :=
  poll.visits.flatMap fun stats => stats.peers.map fun peer => (stats, peer)

/-- A call made for a listed peer. -/
structure Charges (clock : Pubkey → Pubkey → Clock) (l : NetworkStats w × PeerStats w)
    (c : AddCall w) : Prop where
  network : c.network = l.1.public_key
  device : c.device = l.2.public_key
  time : c.time = (clock c.network c.device).secs
  rx : c.traffic.rx ≤ l.2.transfer_rx
  tx : c.traffic.tx ≤ l.2.transfer_tx
  some : c.traffic ≠ Traffic.default

/-- Calls made for some of the listed peers, in their order. -/
def ChargesAll (clock : Pubkey → Pubkey → Clock) (listings : List (NetworkStats w × PeerStats w))
    (calls : List (AddCall w)) : Prop :=
  ∃ charged, charged.Sublist listings ∧ List.Forall₂ (Charges clock) charged calls

/-- The calls of a run for these listings, made on the report. -/
def Charged {κ : Type} (clock : Pubkey → Pubkey → Clock)
    (listings : List (NetworkStats w × PeerStats w)) (s s' : Watch w κ) : Prop :=
  ∃ calls, ChargesAll clock listings calls ∧
    s'.traffic = calls.foldl (fun info c => info.add c.network c.device c.time c.traffic) s.traffic

theorem Charged.of_traffic {κ : Type} {clock : Pubkey → Pubkey → Clock}
    {listings : List (NetworkStats w × PeerStats w)} {s s' : Watch w κ} (h : s'.traffic = s.traffic) :
    Charged clock listings s s' :=
  ⟨[], ⟨[], List.nil_sublist _, .nil⟩, h⟩

theorem charged_graded {κ : Type} (clock : Pubkey → Pubkey → Clock) :
    Graded (Charged (w := w) (κ := κ) clock) where
  nil := fun _ => .of_traffic rfl
  append := by
    rintro a b s t u ⟨calls, ⟨charged, hsub, hall⟩, ht⟩ ⟨calls', ⟨charged', hsub', hall'⟩, hu⟩
    refine ⟨calls ++ calls', ⟨charged ++ charged', hsub.append hsub', List.rel_append hall hall'⟩, ?_⟩
    rw [List.foldl_append, ← ht, hu]
  early := by
    rintro a s t b ⟨calls, ⟨charged, hsub, hall⟩, ht⟩
    exact ⟨calls, ⟨charged, hsub.trans (List.sublist_append_left a b), hall⟩, ht⟩

/-- What is billed is no more than the counters, and not nothing. -/
theorem bill_within {previous peer : PeerStats w} {t : Traffic w} (h : bill previous peer = some t) :
    t.rx ≤ peer.transfer_rx ∧ t.tx ≤ peer.transfer_tx ∧ t ≠ Traffic.default := by
  rw [bill] at h
  split at h
  · cases h
  · next hdec =>
    obtain ⟨hrx, htx⟩ := not_or.mp hdec
    split at h
    · next hpos =>
      obtain rfl := Option.some.inj h
      have hrx : previous.transfer_rx.toNat ≤ peer.transfer_rx.toNat := Nat.not_lt.mp hrx
      have htx : previous.transfer_tx.toNat ≤ peer.transfer_tx.toNat := Nat.not_lt.mp htx
      refine ⟨?_, ?_, fun hnone => ?_⟩
      · rw [BitVec.le_def, BitVec.toNat_sub_of_le hrx]
        exact Nat.sub_le _ _
      · rw [BitVec.le_def, BitVec.toNat_sub_of_le htx]
        exact Nat.sub_le _ _
      · obtain ⟨h1, h2⟩ := Traffic.mk.inj hnone
        rw [BitVec.sub_eq_iff_eq_add] at h1 h2
        simp [h1, h2] at hpos
    · cases h

section
variable (g : Global) (stats : NetworkStats w) (clock : Pubkey → Pubkey → Clock)

theorem reported_charged (peer : PeerStats w) (s : Watch w (Entry w)) :
    Charged clock [(stats, peer)] s
      (s.reported stats (clock stats.public_key peer.public_key) peer) := by
  rw [Watch.reported, Watch.billed]
  split
  · next traffic h =>
    obtain ⟨previous, _, hbill⟩ := Option.bind_eq_some_iff.mp h
    obtain ⟨hrx, htx, hsome⟩ := bill_within hbill
    rw [PeerStats.expire_transfer_rx] at hrx
    rw [PeerStats.expire_transfer_tx] at htx
    refine ⟨[⟨stats.public_key, peer.public_key, (clock stats.public_key peer.public_key).secs,
      traffic⟩], ⟨_, List.Sublist.refl _, .cons ⟨rfl, rfl, rfl, hrx, htx, hsome⟩ .nil⟩, ?_⟩
    rw [PeerStats.expire_public_key]
    rfl
  · exact .of_traffic rfl

theorem watchdog_peer_charged (peer : PeerStats w) :
    Always (Charged clock [(stats, peer)])
      (watchdog_peer g stats (clock stats.public_key peer.public_key) peer) := by
  intro s
  have hreported := reported_charged stats clock peer s
  have hstep := watchdog_peer_step g stats (clock stats.public_key peer.public_key) peer s
  generalize (watchdog_peer g stats (clock stats.public_key peer.public_key) peer).run s = r at hstep
  cases hstep with
  | clock chain hp ht => exact .of_traffic rfl
  | overflow reason hp ho => exact .of_traffic rfl
  | refused chain ha => exact hreported
  | unwrap reason ha hu => exact hreported
  | done ha hu ht => exact hreported

theorem watchdog_sweep_traffic : ∀ (dead : List Pubkey) (s : Watch w (Entry w)),
    (final ((watchdog_sweep g stats dead).run s)).traffic = s.traffic
  | [], _ => rfl
  | x :: dead, s => by
      have hforget : (modify fun s => { s with cache := s.cache.erase x } :
          EStateM Fail (Watch w (Entry w)) PUnit).run s = .ok () { s with cache := s.cache.erase x } := rfl
      rw [watchdog_sweep, List.forM_cons, bind_assoc, bind_of_ok hforget]
      have hsend := g.event_eq (.peerDisconnected stats.public_key x) { s with cache := s.cache.erase x }
      by_cases hf : g.events_broadcast s.log.events.length = .refused
      · rw [if_pos hf] at hsend
        rw [bind_of_error hsend]
        rfl
      · rw [if_neg hf] at hsend
        rw [bind_of_ok hsend]
        exact (watchdog_sweep_traffic dead _).trans rfl

theorem watchdog_entry_charged :
    Always (Charged clock (stats.peers.map fun peer => (stats, peer)))
      (watchdog_entry g stats (clock stats.public_key)) := by
  have hpeers : Always (Charged clock (stats.peers.flatMap fun peer => [(stats, peer)]))
      (watchdog_peers g stats (clock stats.public_key) stats.peers) :=
    (charged_graded clock).forM fun peer _ => (watchdog_peer_charged g stats clock peer).logged
  have hsweep : Always (Charged clock []) (do
      let dead_peers := (← get).cache.keys.filter fun x => x ∉ stats.peers.map (·.public_key)
      watchdog_sweep g stats dead_peers) := fun s => .of_traffic (watchdog_sweep_traffic g stats _ s)
  have h := (charged_graded clock).bind hpeers fun _ => hsweep
  rwa [List.append_nil, ← List.map_eq_flatMap] at h

end

/-- What the visits of a poll add to the report. -/
theorem visits_charged (g : Global) (poll : Poll w) :
    Always (Charged poll.clock poll.listings) (forM poll.visits (visit g poll.clock)) := by
  refine (charged_graded poll.clock).forM fun stats _ => ?_
  have hport : Always (Charged poll.clock (stats.peers.map fun peer => (stats, peer)))
      (atPort stats.listen_port (watchdog_entry g stats (poll.clock stats.public_key))) :=
    Always.zoom (fun _ _ h => h) (watchdog_entry_charged g stats poll.clock)
  exact hport.logged

/-- A report made from a poll: of calls for its listed peers, and so with totals that agree. -/
def Poll.Reported (poll : Poll w) (report : TrafficInfo w) : Prop :=
  ∃ calls, report = TrafficInfo.addAll 0 calls ∧ ChargesAll poll.clock poll.listings calls ∧
    (Fits calls → report.Agrees 0 calls)

theorem Visited.reported {g : Global} {poll : Poll w} {d : Daemon w} {s : Watch w (PeerCache w)}
    (h : Visited g poll d s) : poll.Reported s.traffic := by
  obtain ⟨calls, hcharges, htraffic⟩ := (visits_charged g poll).of_ok h.run
  have hreport : s.traffic = TrafficInfo.addAll 0 calls := htraffic
  exact ⟨calls, hreport, hcharges, fun hfits => hreport ▸ TrafficInfo.addAll_agrees 0 hfits⟩

theorem watchdog_run_calm {g : Global} (hbuild : g.build = .release) {poll : Poll w}
    (h : poll.Announceable) : Calm (watchdog_run g poll) := by
  have hvisits : Calm (forM poll.visits (visit g poll.clock)) :=
    Calm.forM fun stats hst => visit_calm hbuild poll.clock (h stats hst)
  intro d reason d' hpanic
  have hstep := watchdog_run_step g poll d
  rw [hpanic] at hstep
  cases hstep with
  | panic _ hr hrun => exact hvisits _ _ _ hrun

/-! ### Runs -/

/-- The polls that list the namespaces. -/
def listedPolls (polls : List (Poll w)) : List (Poll w) :=
  polls.filter fun poll => poll.netns_list.toOption.isSome

/-- The reports a run adds: of its first listed polls, and of all of them when no poll panics. -/
structure AddsReports (g : Global) (polls : List (Poll w)) (d d' : Daemon w)
    (new : List (TrafficInfo w × Delivery)) : Prop where
  log : d'.log.traffic = d.log.traffic ++ new
  made : List.Forall₂ Poll.Reported ((listedPolls polls).take new.length) (new.map Prod.fst)
  all : (∀ poll ∈ polls, Calm (watchdog_run g poll)) → new.length = (listedPolls polls).length

section
variable {g : Global} {poll : Poll w} {polls : List (Poll w)} {d d₁ d' : Daemon w}
  {new : List (TrafficInfo w × Delivery)}

/-- A poll that could not list the namespaces reports nothing. -/
theorem AddsReports.unlisted {e : String} (hl : poll.netns_list = .error e)
    (h : AddsReports g polls d d' new) : AddsReports g (poll :: polls) d d' new := by
  have hlisted : listedPolls (poll :: polls) = listedPolls polls :=
    List.filter_cons_of_neg (by simp [hl, Except.toOption])
  refine ⟨h.log, ?_, fun hcalm => ?_⟩
  · rw [hlisted]
    exact h.made
  · rw [hlisted]
    exact h.all fun q hq => hcalm q (List.mem_cons_of_mem _ hq)

/-- A poll that got as far as its broadcast reports first. -/
theorem AddsReports.visited {s : Watch w (PeerCache w)} (h : AddsReports g polls d₁ d' new)
    (fate : Delivery) (hv : Visited g poll d s) (hlog : d₁.log = (s.broadcast fate).log) :
    AddsReports g (poll :: polls) d d' ((s.traffic, fate) :: new) := by
  obtain ⟨items, hl⟩ := hv.listed
  have hlisted : listedPolls (poll :: polls) = poll :: listedPolls polls :=
    List.filter_cons_of_pos (by simp [hl, Except.toOption])
  refine ⟨?_, ?_, fun hcalm => ?_⟩
  · rw [h.log, hlog, Watch.broadcast, hv.only.reports, List.append_assoc]
    rfl
  · rw [hlisted]
    exact .cons hv.reported h.made
  · rw [hlisted, List.length_cons, List.length_cons,
      h.all fun q hq => hcalm q (List.mem_cons_of_mem _ hq)]

end

theorem Global.watchdog_reports (g : Global) : ∀ (polls : List (Poll w)) (d : Daemon w),
    ∃ new, AddsReports g polls d (g.watchdog polls d) new
  | [], d => ⟨[], (List.append_nil _).symm, .nil, fun _ => rfl⟩
  | poll :: polls, d => by
      have hstep := watchdog_run_step g poll d
      rw [Global.watchdog]
      generalize hrun : (watchdog_run g poll).run d = r at hstep
      cases hstep with
      | unlisted chain hl =>
        obtain ⟨new, hnew⟩ := g.watchdog_reports polls { d with cache := ∅ }
        exact ⟨new, AddsReports.unlisted hl ⟨hnew.log, hnew.made, hnew.all⟩⟩
      | panic reason hr hpanic =>
        -- the task is dead, what was listed and not reported stays so
        refine ⟨[], ?_, .nil, fun hcalm => absurd hrun (hcalm poll List.mem_cons_self _ _ _)⟩
        rw [List.append_nil]
        exact hr.reports
      | refused chain hv hf =>
        obtain ⟨new, hnew⟩ := g.watchdog_reports polls
          { Watch.broadcast _ (g.reportFate d) with cache := ∅ }
        exact ⟨_, hnew.visited (g.reportFate d) hv rfl⟩
      | sent hv hf =>
        obtain ⟨new, hnew⟩ := g.watchdog_reports polls (Watch.broadcast _ (g.reportFate d))
        exact ⟨_, hnew.visited (g.reportFate d) hv rfl⟩

/-- One report for every poll that lists the namespaces, made from that poll: as long as the watchdog
    lives, and it lives through every poll of a release build whose peers have endpoints. -/
theorem reports_answer_polls (g : Global) (polls : List (Poll w)) :
    let reports := (g.watchdog polls Daemon.start).log.traffic.map Prod.fst
    List.Forall₂ Poll.Reported ((listedPolls polls).take reports.length) reports ∧
      (g.build = .release → (∀ poll ∈ polls, poll.Announceable) →
        reports.length = (listedPolls polls).length) := by
  obtain ⟨new, hnew⟩ := g.watchdog_reports polls Daemon.start
  have hlog : (g.watchdog polls Daemon.start).log.traffic = new := hnew.log
  simp only [hlog, List.length_map]
  exact ⟨hnew.made, fun hbuild hend =>
    hnew.all fun poll hp => watchdog_run_calm hbuild (hend poll hp)⟩

/-- Two polls of one peer that transfers, with one between them that finds no namespaces. -/
def Sample.interrupted : List (Poll 64) :=
  let found (secs : ℤ) (rx : BitVec 64) :=
    Sample.poll secs [("network-5000", Sample.stats 1 5000 [Sample.peer 7 (some 50) rx])]
  [found 100 10, { found 110 20 with netns_list := .error "Permission denied" }, found 120 30]

/-- Nobody listens and a poll fails, and both polls that list the namespaces are reported. -/
theorem reports_answer_polls_interrupted :
    ((⟨.release, fun _ => .refused, fun _ => .refused⟩ : Global).watchdog Sample.interrupted
      Daemon.start).log.traffic.length = 2 := by
  have h := (reports_answer_polls ⟨.release, fun _ => .refused, fun _ => .refused⟩ Sample.interrupted).2
    rfl (by decide +kernel)
  rw [List.length_map] at h
  exact h

end FractalGateway
