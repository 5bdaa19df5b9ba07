import FractalGateway.Watchdog.Visits
import FractalGateway.Watchdog.Connectivity

/-! Networks that leave.

    A peer is announced as disconnected by the visit of its own network that no longer lists it.
    Nothing else announces it: a namespace that is gone is not visited, and on a port taken over by
    another network the leftover cache entries are compared with, and announced under, the new key.
    So the peers of a network say goodbye exactly when the network is polled once more without them
    before it leaves. -/

namespace FractalGateway
open Std Exec

variable {w : ℕ}

/-- The names of the namespaces a poll finds. -/
def Poll.names (poll : Poll w) : List String := (poll.netns_list.toOption.getD []).map (·.name)

/-- The last visit of a network on a port. -/
def lastOf (k : Pubkey) (port : UInt16) (visits : List (NetworkStats w)) :
    Option (NetworkStats w) :=
  (visits.filter fun v => decide (v.public_key = k ∧ v.listen_port = port)).getLast?

/-- The last visit on a port is the last one of its network there. -/
theorem lastOf_of_lastOn {port : UInt16} {visits : List (NetworkStats w)} {l : NetworkStats w}
    (h : lastOn port visits = some l) : lastOf l.public_key port visits = some l := by
  have hsplit : visits.filter (fun v => decide (v.public_key = l.public_key ∧ v.listen_port = port)) =
      (visits.filter fun v => decide (v.listen_port = port)).filter
        fun v => decide (v.public_key = l.public_key) := by
    rw [List.filter_filter]
    congr 1
    funext v
    simp
  obtain ⟨init, hinit⟩ := List.getLast?_eq_some_iff.mp h
  rw [lastOf, hsplit, hinit, List.filter_append]
  simp

/-- Peer `x` is off a network's list before the network leaves: whenever a port is taken over by
    another key, and whenever the namespace in which a network was polled is gone, the last
    statistics of the network on that port do not list `x`. -/
structure Cleared (x : Pubkey) (polls : List (Poll w)) : Prop where
  taken : Handover (fun u => x ∉ u.keys) (visitsOf polls)
  gone : ∀ before poll after, polls = before ++ poll :: after → ∀ p ∈ before,
    ∀ item ∈ p.netns_list.toOption.getD [], ∀ u, p.fetch item = some u → item.name ∉ poll.names →
    ∀ l, lastOf u.public_key u.listen_port (visitsOf (before ++ [poll])) = some l → x ∉ l.keys

section
variable {g : Global} {x : Pubkey}

/-- A disconnection is announced under a key only if that network listed the peer. -/
structure OwnDisconnects (x : Pubkey) (visits : List (NetworkStats w)) (cache : PeerCache w)
    (events : List (GatewayEvent × Delivery)) : Prop where
  cached : CachedAsListed visits cache
  own : Handover (fun u => x ∉ u.keys) visits → ∀ k fate, (.peerDisconnected k x, fate) ∈ events →
    ∃ v ∈ visits, v.public_key = k ∧ x ∈ v.keys

/-- Who is cached under a port when a visit starts there was listed by the visited network. -/
theorem Handover.same_key {visits : List (NetworkStats w)} {stats l : NetworkStats w}
    (h : Handover (fun u => x ∉ u.keys) (visits ++ [stats]))
    (hl : lastOn stats.listen_port visits = some l) (hx : x ∈ l.keys) :
    l.public_key = stats.public_key := by
  by_contra hne
  exact h visits stats [] rfl l hl hne hx

theorem ownDisconnects_kept : KeptByVisits g (OwnDisconnects (w := w) x) := by
  intro done stats clock s s' h hok hacc
  obtain ⟨new, hv⟩ := visit_keys hok hacc
  refine ⟨h.cached.visit hv, fun hclean k fate hmem => ?_⟩
  rw [hv.only.events] at hmem
  rcases List.mem_append.mp hmem with hmem | hmem
  · obtain ⟨v, hvd, hk⟩ := h.own hclean.left k fate hmem
    exact ⟨v, List.mem_append_left _ hvd, hk⟩
  · have hk : k = stats.public_key := hv.only.network _ hmem
    rcases hv.about _ hmem with hx | hslot
    · exact ⟨stats, List.mem_append_right _ (List.mem_singleton_self _), hk.symm, hx⟩
    · -- swept: the peer was listed by the visit before, which had the same key
      obtain ⟨l, hl, hx⟩ := (h.cached stats.listen_port x).mp hslot
      exact ⟨l, List.mem_append_left _ (mem_of_lastOn hl).1, (hclean.same_key hl hx).trans hk.symm,
        hx⟩

/-- From the poll at which network `k` listed `x` on a port, as long as no network leaves with `x`
    on its list: `k` still holds the port and lists `x`, or has said goodbye since. -/
structure StillThere (x k : Pubkey) (port : UInt16) (sofar : List (GatewayEvent × Delivery))
    (visits : List (NetworkStats w)) (cache : PeerCache w)
    (events : List (GatewayEvent × Delivery)) : Prop where
  cached : CachedAsListed visits cache
  grows : sofar <+: events
  stays : Handover (fun u => x ∉ u.keys) visits →
    (∃ l, lastOn port visits = some l ∧ l.public_key = k ∧ x ∈ l.keys) ∨
      ∃ fate, (.peerDisconnected k x, fate) ∈ events.drop sofar.length

theorem mem_drop_append {α : Type} {a : α} {n : ℕ} {l new : List α} (h : a ∈ l.drop n) :
    a ∈ (l ++ new).drop n := by
  rw [List.drop_append]
  exact List.mem_append_left _ h

theorem stillThere_kept (k : Pubkey) (port : UInt16) (sofar : List (GatewayEvent × Delivery)) :
    KeptByVisits g (StillThere (w := w) x k port sofar) := by
  intro done stats clock s s' h hok hacc
  obtain ⟨new, hv⟩ := visit_keys hok hacc
  have hgrows : sofar <+: s'.log.events := by
    rw [hv.only.events]
    exact h.grows.trans (List.prefix_append _ _)
  refine ⟨h.cached.visit hv, hgrows, fun hclean => ?_⟩
  rcases h.stays hclean.left with ⟨l, hon, hlk, hx⟩ | ⟨fate, hfate⟩
  · by_cases hport : stats.listen_port = port
    · subst hport
      have hkey := hclean.same_key hon hx
      by_cases hlisted : x ∈ stats.keys
      · exact Or.inl ⟨stats, by rw [lastOn_concat, if_pos rfl], hkey.symm.trans hlk, hlisted⟩
      · -- the visit sweeps `x` under the key that listed it
        obtain ⟨fate, hfate⟩ := hv.swept x hlisted ((h.cached _ x).mpr ⟨l, hon, hx⟩)
        refine Or.inr ⟨fate, ?_⟩
        rw [hv.only.events, List.drop_append_of_le_length h.grows.length_le, ← hlk, hkey]
        exact List.mem_append_right _ hfate
    · exact Or.inl ⟨l, by rw [lastOn_concat, if_neg hport, hon], hlk, hx⟩
  · rw [hv.only.events]
    exact Or.inr ⟨fate, mem_drop_append hfate⟩

theorem visitsOf_append (a b : List (Poll w)) : visitsOf (a ++ b) = visitsOf a ++ visitsOf b :=
  List.flatMap_append

/-- Whoever holds a port at the end of a poll holds it after the polls up to that one. -/
theorem lastOn_visitsOf_concat {port : UInt16} (polls : List (Poll w)) {poll : Poll w}
    {u : NetworkStats w} (h : lastOn port poll.visits = some u) :
    lastOn port (visitsOf (polls ++ [poll])) = some u := by
  have hlast : visitsOf [poll] = poll.visits := List.flatMap_singleton _ _
  rw [lastOn] at h
  rw [visitsOf_append, hlast, lastOn, List.filter_append, List.getLast?_append, h]
  rfl

theorem mem_keys_of_listed {stats : NetworkStats w} {P : PeerStats w → Bool}
    (h : (listed stats.peers x).any P) : x ∈ stats.keys := by
  cases hl : listed stats.peers x with
  | none => simp [hl] at h
  | some p =>
    obtain ⟨hp, rfl⟩ := listed_some hl
    exact List.mem_map_of_mem hp

/-- A network that has left does not hold its port with `x` on its list. -/
theorem Cleared.left {polls : List (Poll w)} {first last : Poll w} {item : NetnsItem}
    {u l : NetworkStats w} (hclear : Cleared x (polls ++ [last])) (hfirst : first ∈ polls)
    (hitem : item ∈ first.netns_list.toOption.getD []) (hfetch : first.fetch item = some u)
    (hleft : item.name ∉ last.names ∨
      ∃ v, lastOn u.listen_port last.visits = some v ∧ v.public_key ≠ u.public_key)
    (hl : lastOn u.listen_port (visitsOf (polls ++ [last])) = some l)
    (hkey : l.public_key = u.public_key) : x ∉ l.keys := by
  rcases hleft with hgone | ⟨v, hv, hne⟩
  · have hof := lastOf_of_lastOn hl
    rw [hkey] at hof
    exact hclear.gone polls last [] rfl first hfirst item hitem u hfetch hgone l hof
  · obtain rfl : l = v := Option.some.inj (hl.symm.trans (lastOn_visitsOf_concat polls hv))
    exact absurd hkey hne

end

/-- A network that leaves says goodbye, as long as no network leaves while its last statistics still
    list the peer. Network `u` lists `x` as connected at the poll `first`; at the later poll `last`
    its namespace is gone, or its port belongs to another key. Then `x` has been announced as
    disconnected under the network's key in between, no disconnection of `x` was ever announced
    under the key of a network that had not listed it, and nothing is cached of `x` under the port
    but for a network with another key that holds the port now and lists `x` itself. -/
theorem says_goodbye (g : Global) (x : Pubkey) (before mid : List (Poll w)) (first last : Poll w)
    (item : NetnsItem) (u : NetworkStats w) (d₁ d₂ : Daemon w)
    (hrun₁ : (watchdog g (before ++ [first])).run Daemon.start = .ok () d₁)
    (hrun₂ : (watchdog g (mid ++ [last])).run d₁ = .ok () d₂) (hacc : Accepted d₂.log.events)
    (hitem : item ∈ first.netns_list.toOption.getD []) (hfetch : first.fetch item = some u)
    (hon : lastOn u.listen_port first.visits = some u)
    (hfresh : (listed u.peers x).any (·.fresh (first.clock u.public_key x).now))
    (hleft : item.name ∉ last.names ∨
      ∃ v, lastOn u.listen_port last.visits = some v ∧ v.public_key ≠ u.public_key)
    (hclear : Cleared x (before ++ first :: (mid ++ [last]))) :
    (∃ fate, (.peerDisconnected u.public_key x, fate) ∈
        d₂.log.events.drop d₁.log.events.length) ∧
      (∀ k fate, (.peerDisconnected k x, fate) ∈ d₂.log.events →
        ∃ v ∈ visitsOf (before ++ first :: (mid ++ [last])), v.public_key = k ∧ x ∈ v.keys) ∧
      (slot d₂.cache u.listen_port x = none ∨
        ∃ v, lastOn u.listen_port (visitsOf (before ++ first :: (mid ++ [last]))) = some v ∧
          v.public_key ≠ u.public_key ∧ x ∈ v.keys) := by
  have hall : visitsOf (before ++ first :: (mid ++ [last])) =
      visitsOf (before ++ [first]) ++ visitsOf (mid ++ [last]) := by
    rw [← visitsOf_append]
    simp
  have hacc₁ := hacc.of_prefix (watchdog_events g _ hrun₂)
  have hstart : OwnDisconnects x ([] : List (NetworkStats w)) (Daemon.start : Daemon w).cache
      (Daemon.start : Daemon w).log.events := ⟨cachedAsListed_empty, by simp [Daemon.start]⟩
  have hown₁ := ownDisconnects_kept.run hstart hrun₁ hacc₁
  rw [List.nil_append] at hown₁
  have hown := ownDisconnects_kept.run hown₁ hrun₂ hacc
  rw [← hall] at hown
  have hlisted : x ∈ u.keys := mem_keys_of_listed hfresh
  -- the network holds its port at the end of the first poll
  have hon₁ : lastOn u.listen_port (visitsOf (before ++ [first])) = some u :=
    lastOn_visitsOf_concat before hon
  have hthere : StillThere x u.public_key u.listen_port d₁.log.events
      (visitsOf (before ++ [first])) d₁.cache d₁.log.events := by
    exact ⟨hown₁.cached, List.prefix_rfl, fun _ => Or.inl ⟨u, hon₁, rfl, hlisted⟩⟩
  have hfinal := (stillThere_kept u.public_key u.listen_port d₁.log.events).run hthere hrun₂ hacc
  rw [← hall] at hfinal
  have habsent : ∀ l, lastOn u.listen_port (visitsOf (before ++ first :: (mid ++ [last]))) = some l →
      l.public_key = u.public_key → x ∉ l.keys := by
    have hsplit : before ++ first :: (mid ++ [last]) = (before ++ first :: mid) ++ [last] := by simp
    rw [hsplit] at hclear ⊢
    exact fun l hl hkey => hclear.left (by simp) hitem hfetch hleft hl hkey
  refine ⟨?_, hown.own hclear.taken, ?_⟩
  · rcases hfinal.stays hclear.taken with ⟨l, hl, hkey, hx⟩ | hgoodbye
    · exact absurd hx (habsent l hl hkey)
    · exact hgoodbye
  · by_cases hslot : slot d₂.cache u.listen_port x = none
    · exact Or.inl hslot
    · obtain ⟨l, hl, hx⟩ := (hown.cached u.listen_port x).mp hslot
      exact Or.inr ⟨l, hl, fun hkey => habsent l hl hkey hx, hx⟩

/-- A network with one peer, then without it, then gone. -/
def Sample.connected : Poll 64 :=
  Sample.poll 100 [("network-5000", Sample.stats 1 5000 [Sample.peer 7 (some 50) 0])]

def Sample.cleared : Poll 64 := Sample.poll 110 [("network-5000", Sample.stats 1 5000 [])]

def Sample.removed : Poll 64 := Sample.poll 120 []

theorem Sample.cleared_peer :
    Cleared ⟨7⟩ ([] ++ Sample.connected :: ([Sample.cleared] ++ [Sample.removed])) := by
  refine ⟨fun done stats rest heq u hu hne => absurd ?_ hne, ?_⟩
  · have hone : ∀ v ∈ done ++ stats :: rest, v.public_key = ⟨1⟩ := by
      rw [← heq]
      decide
    rw [hone u (by simp [(mem_of_lastOn hu).1]), hone stats (by simp)]
  · intro before poll after heq p hp item hitem u hu hgone l hl
    match before, heq with
    | [], _ => simp at hp
    | [a], heq =>
      obtain ⟨rfl, rfl, -⟩ : Sample.connected = a ∧ Sample.cleared = poll ∧ _ := by simpa using heq
      obtain rfl := List.mem_singleton.mp hp
      obtain rfl := List.mem_singleton.mp hitem
      exact absurd hgone (by decide)
    | [a, b], heq =>
      obtain ⟨rfl, rfl, rfl, -⟩ : Sample.connected = a ∧ Sample.cleared = b ∧
        Sample.removed = poll ∧ _ := by simpa using heq
      have hkey : u.public_key = ⟨1⟩ ∧ u.listen_port = 5000 := by
        rcases List.mem_cons.mp hp with rfl | hp
        · obtain rfl := List.mem_singleton.mp hitem
          cases hu
          exact ⟨rfl, rfl⟩
        · obtain rfl := List.mem_singleton.mp hp
          obtain rfl := List.mem_singleton.mp hitem
          cases hu
          exact ⟨rfl, rfl⟩
      rw [hkey.1, hkey.2] at hl
      obtain rfl : Sample.stats 1 5000 [] = l := Option.some.inj hl
      decide
    | a :: b :: c :: rest, heq =>
      have := congrArg List.length heq
      simp at this

theorem says_goodbye_cleared :
    ∃ d₁ d₂, (watchdog Sample.global [Sample.connected]).run Daemon.start = .ok () d₁ ∧
      (watchdog Sample.global [Sample.cleared, Sample.removed]).run d₁ = .ok () d₂ ∧
      ∃ fate, (.peerDisconnected ⟨1⟩ ⟨7⟩, fate) ∈ d₂.log.events.drop d₁.log.events.length := by
  have h₁ : (watchdog Sample.global [Sample.connected]).run Daemon.start = .ok () _ :=
    ok_of_returned (by decide +kernel)
  have h₂ : (watchdog Sample.global [Sample.cleared, Sample.removed]).run
      (final ((watchdog Sample.global [Sample.connected]).run Daemon.start)) = .ok () _ :=
    ok_of_returned (by decide +kernel)
  exact ⟨_, _, h₁, h₂, (says_goodbye Sample.global ⟨7⟩ [] [Sample.cleared] Sample.connected
    Sample.removed ⟨"network-5000", none⟩ (Sample.stats 1 5000 [Sample.peer 7 (some 50) 0]) _ _ h₁ h₂
    (by decide +kernel) (by decide) (by decide) (by decide) (by decide) (Or.inl (by decide))
    Sample.cleared_peer).1⟩

/-- A network that is removed with its peer connected is never heard of again. -/
theorem leaves_without_goodbye :
    ∃ d₁ d₂, (watchdog Sample.global [Sample.connected]).run Daemon.start = .ok () d₁ ∧
      (watchdog Sample.global [Sample.removed]).run d₁ = .ok () d₂ ∧ Accepted d₂.log.events ∧
      lastOn 5000 Sample.connected.visits =
        some (Sample.stats 1 5000 [Sample.peer 7 (some 50) 0]) ∧
      (Sample.peer 7 (some 50) 0).fresh (Sample.connected.clock ⟨1⟩ ⟨7⟩).now ∧
      "network-5000" ∉ Sample.removed.names ∧
      d₂.log.events.drop d₁.log.events.length = [] ∧ (slot d₂.cache 5000 ⟨7⟩).isSome :=
  ⟨_, _, rfl, rfl, by decide, by decide, by decide, by decide, by decide, by decide⟩

end FractalGateway
