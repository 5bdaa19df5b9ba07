import FractalGateway.Gateway.History
import FractalGateway.Gateway.Reapply

/-! Failed requests may be sent again.

    An attempt that fails has made some of the changes a request makes, and the next one finds them.
    What the request will have made of the machine when it succeeds can be told at any time: which
    namespaces, files and links there will be, and which addresses an interface will have. No change
    along the way changes what can be told (`Touch.expected` and the lemmas after it), so however
    often the request has failed before, it ends as it would have ended the first time.

    Addresses are why the first attempt has to be one that could have succeeded. A network that
    lists an address twice fails to add it a second time, and succeeds when it is sent again. -/

namespace FractalGateway
open Std Exec

/-! ### What a request makes of the machine -/

/-- The addresses of an interface in a namespace, none if there is no such interface. -/
def System.addrs (s : System) (n name : String) : List IpNet :=
  ((s.iface (some n) name).map (·.addrs)).getD []

/-- The namespaces there will be. -/
def Expected (doomed : String → Prop) (networks : NetworkState → Prop) (s : System) (n : String) :
    Prop :=
  n ∈ s.netns ∧ ¬doomed n ∨ ∃ network, networks network ∧ n = network.netns_name

/-- A link that will be there: it does not lead to a namespace that is still to go. -/
def LinkKept (doomed : String → Prop) (s : System) (name : String) (x : String × Option String) :
    Prop :=
  s.link name = some x ∧ (doomed x.1 → x.1 ∉ s.netns)

/-- The addresses there will be, if each is missing once at most. -/
def WillHave (target result current : List IpNet) : Prop :=
  (missing current target).Nodup ∧ current ++ missing current target = result

section
variable {deploy : Deployment} {doomed : String → Prop} {networks : NetworkState → Prop}
  {s s' : System}

theorem LeftAlone.iface {n : String} (h : LeftAlone n s s') (name : String) :
    s'.iface (some n) name = s.iface (some n) name := by
  have hinner := h.inner name
  simp only [System.inner] at hinner
  simp only [System.iface]
  rw [h.netns, hinner]

theorem LeftAlone.addrs {n : String} (h : LeftAlone n s s') (name : String) :
    s'.addrs n name = s.addrs n name := by
  rw [System.addrs, System.addrs, h.iface]

/-- Adding the first few missing addresses leaves the others missing. -/
theorem WillHave.add {target result current added : List IpNet}
    (h : WillHave target result current) (hadded : added <+: missing current target) :
    WillHave target result (current ++ added) := by
  obtain ⟨hnodup, hresult⟩ := h
  obtain ⟨rest, hrest⟩ := hadded
  have hmissing : missing (current ++ added) target = rest := by
    have hfilter : missing (current ++ added) target =
        (missing current target).filter fun addr => decide (addr ∉ added) := by
      rw [missing, missing, List.filter_filter]
      refine List.filter_congr fun addr _ => ?_
      simp [Bool.and_comm]
    rw [← hrest] at hnodup
    obtain ⟨_, _, hdisjoint⟩ := List.nodup_append.mp hnodup
    rw [hfilter, ← hrest, List.filter_append, List.filter_eq_nil_iff.mpr, List.nil_append,
      List.filter_eq_self]
    · exact fun addr hin => decide_eq_true fun ha => hdisjoint addr ha addr hin rfl
    · exact fun addr hin => by simp [hin]
  rw [WillHave, hmissing]
  rw [← hrest] at hnodup hresult
  exact ⟨(List.nodup_append.mp hnodup).2.1, by rw [List.append_assoc, hresult]⟩

/-! ### No change changes it -/

/-- No namespace of a network has to go. -/
def Apart (doomed : String → Prop) (networks : NetworkState → Prop) : Prop :=
  ∀ network, networks network → ¬doomed network.netns_name

theorem Change.mem_netns {network : NetworkState} {n : String} (h : Change deploy network s s')
    (hn : n ≠ network.netns_name) : n ∈ s'.netns ↔ n ∈ s.netns :=
  mem_netns_congr (h.local.netns n fun heq => hn (Option.some.inj heq))

theorem Touch.expected (h : Touch deploy doomed networks s s') (n : String) :
    Expected doomed networks s' n ↔ Expected doomed networks s n := by
  refine or_congr_left' fun hother => and_congr_left fun hn => ?_
  refine mem_netns_congr (h.leftAlone hn fun network hnetwork heq => ?_).netns
  exact hother ⟨network, hnetwork, heq⟩

/-- Only the files of the networks are written. -/
theorem Touch.files {n path : String}
    (hother : ∀ network, networks network → ¬(n = network.netns_name ∧ path = confPath network.wgif_name))
    (h : Touch deploy doomed networks s s') : s'.netns_files n path = s.netns_files n path := by
  cases h with
  | bridge | outer | delete | nginx_module | nginx_site => rfl
  | network hnetwork hchange =>
    cases hchange with
    | netns | wireguard | inner | outer | addrs | veth | nat => rfl
    | file => exact if_neg (hother _ hnetwork)

/-- The links that are left when a namespace is deleted. -/
theorem System.delete_link (s : System) (gone name : String) (x : String × Option String) :
    System.link { s with
      netns := s.netns.erase gone
      veth := s.veth.filter fun _ v => decide (v.netns ≠ gone) } name = some x ↔
      s.link name = some x ∧ x.1 ≠ gone := by
  simp only [System.link, OrdMap.get_filter]
  cases s.veth[name]? with
  | none => simp
  | some v =>
    rw [Option.filter_some]
    by_cases hv : v.netns = gone
    · rw [if_neg (by simp [hv])]
      refine iff_of_false (by simp) ?_
      rintro ⟨heq, hne⟩
      cases heq
      exact hne hv
    · rw [if_pos (decide_eq_true hv)]
      refine ⟨fun heq => ⟨heq, ?_⟩, fun h => h.1⟩
      cases heq
      exact hv

/-- A link that leads to a namespace is deleted with it, sooner or later. -/
theorem Touch.linkKept (hapart : Apart doomed networks) {name : String}
    (hbridge : name ≠ BRIDGE_INTERFACE)
    (hother : ∀ network, networks network → name ≠ network.veth_name)
    (h : Touch deploy doomed networks s s') (x : String × Option String) :
    LinkKept doomed s' name x ↔ LinkKept doomed s name x := by
  cases h with
  | bridge | nginx_module | nginx_site => rfl
  | outer f =>
    have hlink := (s.alter_outer_local f none BRIDGE_INTERFACE).link name hbridge
    exact and_congr (by rw [hlink]) Iff.rfl
  | @delete gone hgone hin =>
    rw [LinkKept, LinkKept, System.delete_link]
    constructor
    · rintro ⟨⟨hlink, hne⟩, hx⟩
      exact ⟨hlink, fun hd hm => hx hd ((OrdMap.mem_erase _ _ _).mpr ⟨hne.symm, hm⟩)⟩
    · rintro ⟨hlink, hx⟩
      exact ⟨⟨hlink, fun heq => hx (heq ▸ hgone) (heq ▸ hin)⟩,
        fun hd hm => hx hd ((OrdMap.mem_erase _ _ _).mp hm).2⟩
  | @network _ network hnetwork hchange =>
    have hlink := hchange.local.link name (hother network hnetwork)
    refine and_congr (by rw [hlink]) (imp_congr_right fun hx => not_congr ?_)
    exact hchange.mem_netns fun heq => hapart network hnetwork (heq ▸ hx)

/-- What is new in a namespace has no addresses. -/
theorem System.addrs_netns {n : String} (hnew : n ∉ s.netns) (n' name : String) :
    System.addrs { s with netns := s.netns.insert n ⟨∅, ""⟩ } n' name = s.addrs n' name := by
  have hnone := (OrdMap.not_mem_iff_get _ _).mp hnew
  simp only [System.addrs, System.iface, OrdMap.get_insert]
  split
  · next heq =>
    subst heq
    simp [hnone]
  · rfl

theorem System.addrs_wireguard {n wgif : String} {ns : Netns} (mtu : ℕ)
    (hfree : s.iface (some n) wgif = none) (hns : s.netns[n]? = some ns) (n' name : String) :
    System.addrs { s with
      netns := s.netns.insert n { ns with wireguard := ns.wireguard.insert wgif (Iface.new mtu) } }
      n' name = s.addrs n' name := by
  by_cases hn : n = n'
  · subst hn
    by_cases hname : wgif = name
    · subst hname
      simp only [System.addrs, hfree]
      simp [System.iface, Iface.new]
    · simp only [System.addrs, System.iface, OrdMap.get_insert, if_pos, hns]
      simp [hname]
  · simp only [System.addrs, System.iface, OrdMap.get_insert]
    rw [if_neg hn]

theorem System.addrs_veth {n veth : String} (mtu : ℕ) (hroot : s.veth[veth]? = none)
    (hfree : s.iface (some n) veth = none) (n' name : String) :
    System.addrs { s with veth := s.veth.insert veth ⟨n, Iface.new mtu, Iface.new mtu⟩ } n' name =
      s.addrs n' name := by
  by_cases hname : veth = name
  · subst hname
    by_cases hn : n = n'
    · subst hn
      have hwg := (Option.or_eq_none_iff.mp hfree).1
      simp only [System.addrs, hfree]
      simp [System.iface, hwg, Option.filter, Iface.new]
    · simp only [System.addrs, System.iface, OrdMap.get_insert, hroot]
      simp [Option.filter, hn]
  · simp only [System.addrs, System.iface, OrdMap.get_insert]
    rw [if_neg hname]

/-- A change that leaves the addresses of the interface it is made to. -/
theorem System.addrs_alter {f : Iface → Iface} {n name : String}
    (hf : ∀ i, s.iface (some n) name = some i → (f i).addrs = i.addrs) (n' name' : String) :
    (s.alter f (some n) name).addrs n' name' = s.addrs n' name' := by
  rw [System.addrs, System.addrs, System.iface_alter_inner]
  split
  · next heq =>
    obtain ⟨rfl, rfl⟩ := heq
    cases hi : s.iface (some n) name with
    | none => rfl
    | some i => exact hf i hi
  · rfl

theorem System.addrs_outer (f : Iface → Iface) (wire n name : String) :
    (s.alter f none wire).addrs n name = s.addrs n name := by
  rw [System.addrs, System.addrs, System.iface_alter_outer]

/-- Applying a network adds to an interface the first few of the addresses it is to have, if
    anything. -/
theorem Change.addrs_grow {network : NetworkState} (h : Change deploy network s s')
    (n name : String) :
    s'.addrs n name = s.addrs n name ∨
      ∃ target added, network.netns_name = n ∧ (name, target) ∈ network.addressing ∧
        added <+: missing (s.addrs n name) target ∧ s'.addrs n name = s.addrs n name ++ added := by
  cases h with
  | netns hnew => exact Or.inl (System.addrs_netns hnew n name)
  | wireguard hfree hns => exact Or.inl (System.addrs_wireguard 1420 hfree hns n name)
  | inner other f hf => exact Or.inl (System.addrs_alter (fun i _ => hf i) n name)
  | outer f => exact Or.inl (System.addrs_outer f _ n name)
  | @addrs i other target added hin hi hprefix =>
    by_cases hsame : network.netns_name = n ∧ other = name
    · obtain ⟨rfl, rfl⟩ := hsame
      have haddrs : s.addrs network.netns_name other = i.addrs := by
        rw [System.addrs, hi]
        rfl
      refine Or.inr ⟨target, added, rfl, hin, haddrs ▸ hprefix, ?_⟩
      rw [haddrs, System.addrs, System.iface_alter_inner, if_pos ⟨rfl, rfl⟩, hi]
      rfl
    · rw [System.addrs, System.iface_alter_inner, if_neg hsame]
      exact Or.inl rfl
  | file => exact Or.inl rfl
  | veth _ hroot hinner =>
    exact Or.inl (System.addrs_veth 1500 (System.veth_eq_none (by simp [hroot])) hinner n name)
  | nat rules hns =>
    refine Or.inl ?_
    simp only [System.addrs, System.iface]
    rw [wireguard_of_nat rules hns]

/-- The addresses an interface will have. -/
theorem Touch.willHave {n name : String} {target result : List IpNet} (hn : ¬doomed n)
    (htarget : ∀ network, networks network → network.netns_name = n →
      ∀ t, (name, t) ∈ network.addressing → t = target)
    (h : Touch deploy doomed networks s s') (hw : WillHave target result (s.addrs n name)) :
    WillHave target result (s'.addrs n name) := by
  cases h with
  | bridge | nginx_module | nginx_site => exact hw
  | outer f =>
    rw [System.addrs_outer]
    exact hw
  | delete hgone _ =>
    have hleft := s.delete_leftAlone fun heq : n = _ => hn (heq ▸ hgone)
    rw [hleft.addrs]
    exact hw
  | network hnetwork hchange =>
    rcases hchange.addrs_grow n name with hsame | ⟨t, added, hnetns, hin, hadded, hgrow⟩
    · rw [hsame]
      exact hw
    · obtain rfl := htarget _ hnetwork hnetns t hin
      rw [hgrow]
      exact hw.add hadded

/-! ### Where it ends -/

/-- A request has come to an end, after any number of attempts: what had to go is gone, and its
    networks are settled. -/
structure Completed (deploy : Deployment) (doomed : String → Prop) (networks : NetworkState → Prop)
    (s s' : System) : Prop where
  touched : Relation.ReflTransGen (Touch deploy doomed networks) s s'
  gone : ∀ n, doomed n → n ∉ s'.netns
  settled : ∀ network, networks network → Settled deploy network s'

/-- The same namespaces and files, the same views of the ports that have a namespace, and the same
    addresses; namespaces that are no port's are the same altogether. -/
structure SameMachine (s s' : System) : Prop where
  names : ∀ n, n ∈ s'.netns ↔ n ∈ s.netns
  files : s'.netns_files = s.netns_files
  views : ∀ port, portName NETNS_PREFIX port ∈ s.netns → s'.view port = s.view port
  addrs : ∀ n ∈ s.netns, ∀ name, s'.addrs n name = s.addrs n name
  others : ∀ n ∈ s.netns, (∀ port, n ≠ portName NETNS_PREFIX port) → LeftAlone n s s'

theorem Settled.addressed {network : NetworkState} (h : Settled deploy network s) :
    ∀ t ∈ network.addressing, ∀ addr ∈ t.2, addr ∈ s.addrs network.netns_name t.1 := by
  intro t ht addr hin
  rcases List.mem_cons.mp ht with rfl | ht
  · obtain ⟨i, hi, _, haddr⟩ := h.wireguard
    rw [System.addrs, show s.iface (some network.netns_name) network.wgif_name = some i from
      System.iface_of_wgif hi]
    exact haddr addr hin
  · obtain rfl := List.mem_singleton.mp ht
    obtain rfl := List.mem_singleton.mp hin
    obtain ⟨i, hi, _, haddr⟩ := h.inner
    rw [System.addrs, hi]
    exact haddr

/-- An interface has one target. -/
theorem NetworkState.addressing_unique {network : NetworkState} {name : String} {t t' : List IpNet}
    (h : (name, t) ∈ network.addressing) (h' : (name, t') ∈ network.addressing) : t = t' := by
  have hne : network.veth_name ≠ network.wgif_name := veth_ne_wgif _ _
  simp only [NetworkState.addressing, List.mem_cons, List.not_mem_nil, or_false, Prod.mk.injEq] at h h'
  rcases h with ⟨rfl, rfl⟩ | ⟨rfl, rfl⟩
  · rcases h' with ⟨_, rfl⟩ | ⟨heq, _⟩
    · rfl
    · exact absurd heq.symm hne
  · rcases h' with ⟨heq, _⟩ | ⟨_, rfl⟩
    · exact absurd heq hne
    · rfl

/-- What no change changes holds at the end. -/
theorem touched_keeps {P : System → Prop} (hs : P s)
    (h : Relation.ReflTransGen (Touch deploy doomed networks) s s')
    (hstep : ∀ t t', Touch deploy doomed networks t t' → P t → P t') : P s' := by
  induction h with
  | refl => exact hs
  | tail _ ht ih => exact hstep _ _ ht ih

section
variable (h : Completed deploy doomed networks s s')
include h

theorem Completed.names (n : String) : n ∈ s'.netns ↔ Expected doomed networks s n := by
  have hinv : Expected doomed networks s' n ↔ Expected doomed networks s n :=
    touched_keeps Iff.rfl h.touched fun _ _ ht => (ht.expected n).trans
  rw [← hinv]
  refine ⟨fun hn => Or.inl ⟨hn, fun hd => h.gone n hd hn⟩, ?_⟩
  rintro (⟨hn, _⟩ | ⟨network, hnetwork, rfl⟩)
  · exact hn
  · exact (h.settled network hnetwork).shown.mem_netns

theorem Completed.files {n path : String} (hother : ∀ network, networks network →
    ¬(n = network.netns_name ∧ path = confPath network.wgif_name)) :
    s'.netns_files n path = s.netns_files n path :=
  touched_keeps (P := fun t => t.netns_files n path = s.netns_files n path) rfl h.touched
    fun _ _ ht => (ht.files hother).trans

theorem Completed.link (hapart : Apart doomed networks) {name : String}
    (hbridge : name ≠ BRIDGE_INTERFACE)
    (hother : ∀ network, networks network → name ≠ network.veth_name)
    (x : String × Option String) : s'.link name = some x ↔ LinkKept doomed s name x := by
  have hinv : LinkKept doomed s' name x ↔ LinkKept doomed s name x :=
    touched_keeps Iff.rfl h.touched fun _ _ ht => (ht.linkKept hapart hbridge hother x).trans
  rw [← hinv]
  exact ⟨fun hlink => ⟨hlink, h.gone x.1⟩, fun hkept => hkept.1⟩

theorem Completed.leftAlone {n : String} (hn : ¬doomed n)
    (hother : ∀ network, networks network → n ≠ network.netns_name) : LeftAlone n s s' :=
  touched_keeps (Std.Refl.refl s) h.touched fun _ _ ht hs =>
    IsTrans.trans _ _ _ hs (ht.leftAlone hn hother)

theorem Completed.addrs {n name : String} {target result : List IpNet} (hn : ¬doomed n)
    (htarget : ∀ network, networks network → network.netns_name = n →
      ∀ t, (name, t) ∈ network.addressing → t = target)
    (hw : WillHave target result (s.addrs n name))
    (hall : ∀ addr ∈ target, addr ∈ s'.addrs n name) : s'.addrs n name = result := by
  have hw' : WillHave target result (s'.addrs n name) :=
    touched_keeps hw h.touched fun _ _ ht => ht.willHave hn htarget
  have hnone : missing (s'.addrs n name) target = [] := by
    rw [missing, List.filter_eq_nil_iff]
    exact fun addr hin => by simp [hall addr hin]
  rw [← hw'.2, hnone, List.append_nil]

end

/-- A network's file. -/
theorem Settled.file {network : NetworkState} (h : Settled deploy network s) :
    s.netns_files network.netns_name (confPath network.wgif_name) =
      some (network.to_config deploy.keys) := by
  obtain ⟨rules, _, hview⟩ := h.shown
  exact congrArg PortView.file hview

/-- Two settled systems show a network alike. -/
theorem Settled.view_eq {network : NetworkState} (h : Settled deploy network s)
    (h' : Settled deploy network s') :
    s'.view network.listen_port = s.view network.listen_port := by
  obtain ⟨rules, hrules, hview⟩ := h.shown
  obtain ⟨rules', hrules', hview'⟩ := h'.shown
  obtain rfl : rules = rules' := Except.ok.inj (hrules.symm.trans hrules')
  exact hview'.trans hview.symm

section
variable {s'' : System} (h : Completed deploy doomed networks s s')
  (h' : Completed deploy doomed networks s s'')
include h h'

theorem Completed.files_eq : s''.netns_files = s'.netns_files := by
  funext n path
  by_cases hof : ∃ network, networks network ∧ n = network.netns_name ∧
      path = confPath network.wgif_name
  · obtain ⟨network, hnetwork, rfl, rfl⟩ := hof
    rw [(h.settled network hnetwork).file, (h'.settled network hnetwork).file]
  · have hother : ∀ network, networks network →
        ¬(n = network.netns_name ∧ path = confPath network.wgif_name) :=
      fun network hnetwork heq => hof ⟨network, hnetwork, heq⟩
    rw [h.files hother, h'.files hother]

/-- Namespaces the request is not about. -/
theorem Completed.other_eq {n : String} (hn : n ∈ s'.netns)
    (hother : ∀ network, networks network → n ≠ network.netns_name) : LeftAlone n s' s'' := by
  have hnd : ¬doomed n := fun hd => h.gone n hd hn
  have hl := h.leftAlone hnd hother
  have hl' := h'.leftAlone hnd hother
  exact ⟨hl'.netns.trans hl.netns.symm, hl'.files.trans hl.files.symm,
    fun name => (hl'.inner name).trans (hl.inner name).symm⟩

theorem Completed.view_eq (hapart : Apart doomed networks) {port : UInt16}
    (hp : portName NETNS_PREFIX port ∈ s'.netns) : s''.view port = s'.view port := by
  by_cases hof : ∃ network, networks network ∧ network.listen_port = port
  · obtain ⟨network, hnetwork, rfl⟩ := hof
    exact (h.settled network hnetwork).view_eq (h'.settled network hnetwork)
  · have hother : ∀ network, networks network → port ≠ network.listen_port :=
      fun network hnetwork heq => hof ⟨network, hnetwork, heq.symm⟩
    have hl := h.other_eq h' hp fun network hnetwork heq =>
      hother network hnetwork (portName_injective _ heq)
    have hlink : s''.link (portName VETH_PREFIX port) = s'.link (portName VETH_PREFIX port) := by
      have hv : ∀ network, networks network → portName VETH_PREFIX port ≠ network.veth_name :=
        fun network hnetwork heq => hother network hnetwork (portName_injective _ heq)
      refine Option.ext fun x => ?_
      rw [h.link hapart (portName_ne_bridge port) hv, h'.link hapart (portName_ne_bridge port) hv]
    have hwgif : s''.wgif port = s'.wgif port := by
      simp only [System.wgif]
      rw [hl.netns]
    refine PortView.ext ?_ ?_ ?_ hlink ?_
    · exact congrFun hl.files _
    · exact congrArg (Option.bind · _) hwgif
    · exact congrArg (Option.bind · _) hwgif
    · exact congrArg (Option.map _) hl.netns

theorem Completed.addrs_eq
    (hunique : ∀ a b, networks a → networks b → a.listen_port = b.listen_port → a = b)
    (hnodup : ∀ network, networks network → ∀ t ∈ network.addressing,
      (missing (s.addrs network.netns_name t.1) t.2).Nodup)
    {n : String} (hn : n ∈ s'.netns) (name : String) : s''.addrs n name = s'.addrs n name := by
  have hnd : ¬doomed n := fun hd => h.gone n hd hn
  by_cases hof : ∃ network t, networks network ∧ network.netns_name = n ∧
      (name, t) ∈ network.addressing
  · obtain ⟨network, t, hnetwork, rfl, ht⟩ := hof
    have htarget : ∀ other, networks other → other.netns_name = network.netns_name →
        ∀ t', (name, t') ∈ other.addressing → t' = t := by
      intro other hother heq t' ht'
      obtain rfl := hunique other network hother hnetwork (portName_injective _ heq)
      exact NetworkState.addressing_unique ht' ht
    have hw : WillHave t _ (s.addrs network.netns_name name) :=
      ⟨hnodup network hnetwork (name, t) ht, rfl⟩
    rw [h.addrs hnd htarget hw ((h.settled network hnetwork).addressed (name, t) ht),
      h'.addrs hnd htarget hw ((h'.settled network hnetwork).addressed (name, t) ht)]
  · -- an interface that is given no addresses keeps the ones it has
    have htarget : ∀ network, networks network → network.netns_name = n →
        ∀ t, (name, t) ∈ network.addressing → t = [] :=
      fun network hnetwork heq t ht => absurd ⟨network, t, hnetwork, heq, ht⟩ hof
    have hw : WillHave [] (s.addrs n name) (s.addrs n name) := ⟨List.nodup_nil, List.append_nil _⟩
    rw [h.addrs hnd htarget hw (by simp), h'.addrs hnd htarget hw (by simp)]

/-- However a request came to its end from a system on which it could have succeeded, it has left
    the same machine. -/
theorem Completed.same (hapart : Apart doomed networks)
    (hunique : ∀ a b, networks a → networks b → a.listen_port = b.listen_port → a = b)
    (hnodup : ∀ network, networks network → ∀ t ∈ network.addressing,
      (missing (s.addrs network.netns_name t.1) t.2).Nodup) : SameMachine s' s'' where
  names n := (h'.names n).trans (h.names n).symm
  files := h.files_eq h'
  views _ hp := h.view_eq h' hapart hp
  addrs _ hn := h.addrs_eq h' hunique hnodup hn
  others _ hn hport := h.other_eq h' hn fun network _ => hport network.listen_port

end

end

/-! ### An attempt that succeeds -/

section
variable {os : Os} {deploy : Deployment} {network : NetworkState} {m m' : Machine}

/-- The addresses an interface was found with, when the missing ones could be added. -/
theorem apply_addr_nodup {n name : String} {target : List IpNet}
    (h : (apply_addr os (some n) name target).run m = .ok () m') :
    (missing (m.sys.addrs n name) target).Nodup := by
  obtain ⟨i, hi, hnodup, _⟩ := apply_addr_ok h
  rw [System.addrs, hi]
  exact hnodup

theorem apply_netns_addrs (h : (apply_netns os network).run m = .ok () m') (n name : String) :
    m'.sys.addrs n name = m.sys.addrs n name := by
  obtain ⟨present, t, hexists, h⟩ := bind_ok_iff.mp h
  obtain ⟨_, hsys⟩ := Prod.mk.inj (Option.some.inj (command_ok hexists))
  rw [hsys]
  rcases skipIf_ok_iff.mp h with ⟨_, rfl⟩ | ⟨_, hrun⟩
  · rfl
  · have hact := command_ok hrun
    split at hact
    · cases hact
    · next hnew =>
      obtain ⟨_, hs⟩ := Prod.mk.inj (Option.some.inj hact)
      rw [← hs, System.addrs_netns hnew]

theorem wireguard_present_addrs {present : Bool} {t : Machine}
    (hexists : (wireguard_exists os network.netns_name network.wgif_name).run m = .ok present t)
    (hcreate : (skipIf present (wireguard_create os network.netns_name network.wgif_name)).run t =
      .ok () m') (n name : String) : m'.sys.addrs n name = m.sys.addrs n name := by
  obtain ⟨ns, _, heq⟩ := Option.map_eq_some_iff.mp (command_ok hexists)
  obtain ⟨_, hsys⟩ := Prod.mk.inj heq
  rw [hsys]
  rcases skipIf_ok_iff.mp hcreate with ⟨_, rfl⟩ | ⟨_, hrun⟩
  · rfl
  · have hact := command_ok hrun
    split at hact
    · cases hact
    · next hfree =>
      obtain ⟨ns', hns, heq⟩ := Option.map_eq_some_iff.mp hact
      obtain ⟨_, hs⟩ := Prod.mk.inj heq
      rw [← hs, System.addrs_wireguard 1420 (Option.not_isSome_iff_eq_none.mp hfree) hns]

theorem apply_interface_up_addrs {n name : String}
    (h : (apply_interface_up os (some n) name).run m = .ok () m') (n' name' : String) :
    m'.sys.addrs n' name' = m.sys.addrs n' name' := by
  obtain ⟨i, f, hi, hs, _, hf⟩ := apply_interface_up_ok h
  rw [hs, System.addrs_alter]
  intro j hj
  obtain rfl := Option.some.inj (hi.symm.trans hj)
  exact hf

/-- Until its addresses are added, a WireGuard interface keeps those it had. -/
theorem apply_wireguard_nodup (h : (apply_wireguard os deploy network).run m = .ok () m') :
    (missing (m.sys.addrs network.netns_name network.wgif_name) network.address).Nodup := by
  obtain ⟨present, t₁, hexists, h⟩ := bind_ok_iff.mp h
  obtain ⟨_, t₂, hcreate, h⟩ := bind_ok_iff.mp h
  obtain ⟨shown, t₃, hshow, h⟩ := bind_ok_iff.mp h
  obtain ⟨mtu, t₄, hmtu, h⟩ := bind_ok_iff.mp h
  obtain ⟨_, t₅, hset, h⟩ := bind_ok_iff.mp h
  obtain ⟨_, t₆, hup, h⟩ := bind_ok_iff.mp h
  obtain ⟨_, t₇, hwrite, h⟩ := bind_ok_iff.mp h
  obtain ⟨_, t₈, haddr, _⟩ := bind_ok_iff.mp h
  obtain ⟨i, _, hact⟩ := onIface_ok hshow
  obtain ⟨_, hsys⟩ := Prod.mk.inj (Option.some.inj hact)
  obtain ⟨_, rfl⟩ := liftE_ok_iff.mp hmtu
  have hset : t₅.sys.addrs network.netns_name network.wgif_name =
      t₃.sys.addrs network.netns_name network.wgif_name := by
    rcases skipIf_ok_iff.mp hset with ⟨_, rfl⟩ | ⟨_, hrun⟩
    · rfl
    · obtain ⟨_, _, hact⟩ := onIface_ok hrun
      obtain ⟨_, hs⟩ := Prod.mk.inj (Option.some.inj hact)
      rw [← hs, System.addrs_alter]
      intro i _
      rfl
  obtain ⟨_, hs⟩ := Prod.mk.inj (Option.some.inj (command_ok hwrite))
  have hsame : t₇.sys.addrs network.netns_name network.wgif_name =
      m.sys.addrs network.netns_name network.wgif_name :=
    calc t₇.sys.addrs network.netns_name network.wgif_name
      _ = t₆.sys.addrs network.netns_name network.wgif_name := by rw [← hs]; rfl
      _ = t₅.sys.addrs network.netns_name network.wgif_name :=
        apply_interface_up_addrs (context_ok_iff.mp hup) _ _
      _ = t₃.sys.addrs network.netns_name network.wgif_name := hset
      _ = t₂.sys.addrs network.netns_name network.wgif_name := by rw [hsys]
      _ = m.sys.addrs network.netns_name network.wgif_name :=
        wireguard_present_addrs hexists hcreate _ _
  rw [← hsame]
  exact apply_addr_nodup (context_ok_iff.mp haddr)

/-- The WireGuard side of a network leaves the addresses of its link. -/
theorem apply_wireguard_addrs (h : (apply_wireguard os deploy network).run m = .ok () m') :
    m'.sys.addrs network.netns_name network.veth_name =
      m.sys.addrs network.netns_name network.veth_name := by
  have halter : ∀ (s : System) (f : Iface → Iface),
      Unchanged (·.addrs network.netns_name network.veth_name) s
        (s.alter f (some network.netns_name) network.wgif_name) := by
    intro s f
    show System.addrs _ _ _ = System.addrs _ _ _
    rw [System.addrs, System.addrs, System.iface_alter_inner,
      if_neg fun h => veth_ne_wgif _ _ h.2.symm]
  have hall : Always (OnSys (Unchanged (·.addrs network.netns_name network.veth_name)))
      (apply_wireguard os deploy network) := by
    refine Always.bind (look_always fun k s r hact => ?_) fun _ =>
      Always.bind (Always.skipIf (command_always fun k s a s' hact => ?_)) fun _ =>
      Always.bind (onIface_always fun i s a s' hact => ?_) fun _ =>
      Always.bind (Always.liftE _) fun _ =>
      Always.bind (Always.skipIf (onIface_always fun i s a s' hact => ?_)) fun _ =>
      Always.bind (Always.context _ (apply_interface_up_always fun s f _ => halter s f)) fun _ =>
      Always.bind (command_always fun k s a s' hact => ?_) fun _ =>
      Always.bind (Always.context _ (apply_addr_always (fun s f _ => halter s f) _)) fun _ =>
      command_always fun k s a s' hact => ?_
    · obtain ⟨ns, _, rfl⟩ := Option.map_eq_some_iff.mp hact
      rfl
    · split at hact
      · cases hact
      · next hfree =>
        obtain ⟨ns, hns, heq⟩ := Option.map_eq_some_iff.mp hact
        cases heq
        exact System.addrs_wireguard 1420 (Option.not_isSome_iff_eq_none.mp hfree) hns _ _
    · cases hact
      rfl
    · cases hact
      exact halter s _
    · cases hact
      rfl
    · obtain ⟨conf, _, hact⟩ := Option.bind_eq_some_iff.mp hact
      obtain ⟨i, _, heq⟩ := Option.map_eq_some_iff.mp hact
      cases heq
      exact halter s _
  exact always_ok hall h

theorem apply_veth_nodup (h : (apply_veth os network).run m = .ok () m') :
    (missing (m.sys.addrs network.netns_name network.veth_name)
      [network.veth_ipv4net.toIpNet]).Nodup := by
  obtain ⟨present, t₁, hexists, h⟩ := bind_ok_iff.mp h
  obtain ⟨_, t₂, hadd, h⟩ := bind_ok_iff.mp h
  obtain ⟨_, t₃, haddr, _⟩ := bind_ok_iff.mp h
  obtain ⟨_, hsys⟩ := Prod.mk.inj (Option.some.inj (command_ok hexists))
  have hnodup := apply_addr_nodup (context_ok_iff.mp haddr)
  rw [hsys]
  rcases skipIf_ok_iff.mp hadd with ⟨_, rfl⟩ | ⟨_, hrun⟩
  · exact hnodup
  · have hact := command_ok hrun
    split at hact
    · cases hact
    · next hfree =>
      rw [not_or, not_or] at hfree
      obtain ⟨_, hs⟩ := Prod.mk.inj (Option.some.inj hact)
      rw [← hs, System.addrs_veth 1500 (System.veth_eq_none hfree.2.1)
        (Option.not_isSome_iff_eq_none.mp hfree.2.2)] at hnodup
      exact hnodup

/-- A network that was applied misses no address twice on any of its interfaces. -/
theorem apply_network_nodup (h : (apply_network os deploy network).run m = .ok () m') :
    ∀ t ∈ network.addressing, (missing (m.sys.addrs network.netns_name t.1) t.2).Nodup := by
  obtain ⟨_, t₁, hnetns, h⟩ := bind_ok_iff.mp h
  obtain ⟨_, t₂, hwireguard, h⟩ := bind_ok_iff.mp h
  obtain ⟨_, t₃, hveth, _⟩ := bind_ok_iff.mp h
  intro t ht
  rw [← apply_netns_addrs hnetns]
  rcases List.mem_cons.mp ht with rfl | ht
  · exact apply_wireguard_nodup hwireguard
  · obtain rfl := List.mem_singleton.mp ht
    rw [← apply_wireguard_addrs hwireguard]
    exact apply_veth_nodup hveth

/-- What is touched elsewhere is spared here. -/
theorem Touch.spared {doomed : String → Prop} {networks : NetworkState → Prop} {s s' : System}
    (hdoomed : ¬doomed network.netns_name)
    (hnetworks : ∀ other, networks other → other.listen_port ≠ network.listen_port)
    (h : Touch deploy doomed networks s s') : Spared network s s' := by
  cases h with
  | bridge | nginx_module | nginx_site => exact ⟨rfl, rfl, fun _ hv _ => hv⟩
  | outer f =>
    have hne : BRIDGE_INTERFACE ≠ network.veth_name := (portName_ne_bridge _).symm
    refine ⟨rfl, rfl, fun v hv _ => ?_⟩
    simp only [System.alter, OrdMap.get_modify]
    rw [if_neg hne]
    exact hv
  | @delete gone hgone _ =>
    have hne : network.netns_name ≠ gone := fun heq => hdoomed (heq ▸ hgone)
    refine ⟨(s.delete_leftAlone hne).netns, rfl, fun v hv hnetns => ?_⟩
    rw [OrdMap.get_filter, hv, Option.filter_some, if_pos (decide_eq_true (hnetns ▸ hne))]
  | network hnetwork hchange => exact hchange.spared (hnetworks _ hnetwork)

end

/-! ### Requests -/

/-- The namespaces a request has to remove. -/
def GatewayRequest.Dooms : GatewayRequest → String → Prop
  | .apply config => fun n =>
    starts_with n NETNS_PREFIX = true ∧ ∀ port ∈ config, n ≠ portName NETNS_PREFIX port
  | .applyPartial diff => fun n => ∃ port, diff[port]? = some none ∧ n = portName NETNS_PREFIX port
  | .shutdown => fun _ => False

/-- The networks a request has to apply. -/
def GatewayRequest.Carries : GatewayRequest → NetworkState → Prop
  | .apply config => fun network => (network.listen_port, network) ∈ config.rekeyed
  | .applyPartial diff => fun network => diff[network.listen_port]? = some (some network)
  | .shutdown => fun _ => False

theorem GatewayRequest.carries_unique {request : GatewayRequest} {a b : NetworkState}
    (ha : request.Carries a) (hb : request.Carries b) (heq : a.listen_port = b.listen_port) :
    a = b := by
  cases request with
  | apply config =>
    obtain ⟨network, hget, ha⟩ := GatewayConfig.mem_rekeyed.mp ha
    obtain ⟨network', hget', hb⟩ := GatewayConfig.mem_rekeyed.mp hb
    rw [← heq] at hget' hb
    obtain rfl := Option.some.inj (hget.symm.trans hget')
    exact ha.trans hb.symm
  | applyPartial diff =>
    have hb : diff[b.listen_port]? = some (some b) := hb
    rw [← heq] at hb
    exact Option.some.inj (Option.some.inj (ha.symm.trans hb))
  | shutdown => cases ha

theorem GatewayRequest.carries_apart (request : GatewayRequest) :
    Apart request.Dooms request.Carries := by
  intro network hcarries hdooms
  cases request with
  | apply config =>
    obtain ⟨port, hp, heq⟩ := GatewayConfig.exists_rekeyed_iff.mp ⟨_, hcarries, rfl⟩
    exact hdooms.2 port hp heq
  | applyPartial diff =>
    obtain ⟨port, hget, heq⟩ := hdooms
    rw [← portName_injective _ heq] at hget
    have hcarries : diff[network.listen_port]? = some (some network) := hcarries
    rw [hcarries] at hget
    cases hget
  | shutdown => cases hcarries

section
variable {os : Os} {deploy : Deployment}

/-- Every attempt is a sequence of changes. -/
theorem respond_touches {request : GatewayRequest} (hkeyed : request.Keyed) :
    Always (InWorld (Relation.ReflTransGen (Touch deploy request.Dooms request.Carries)))
      (respond os deploy request) := by
  have hrefl : Std.Refl (Relation.ReflTransGen (Touch deploy request.Dooms request.Carries)) :=
    ⟨fun _ => .refl⟩
  have htrans : IsTrans System (Relation.ReflTransGen (Touch deploy request.Dooms request.Carries)) :=
    ⟨fun _ _ _ h h' => h.trans h'⟩
  cases request with
  | apply config =>
    refine apply_always (fun _ _ ht => .single ht) (fun n hn hnot => ⟨hn, hnot⟩) fun e he => ?_
    show (e.2.listen_port, e.2) ∈ config.rekeyed
    rw [GatewayConfig.rekeyed_keyed e he]
    exact he
  | applyPartial diff =>
    refine apply_partial_always (fun _ _ ht => .single ht) (fun port hget => ⟨port, hget, rfl⟩)
      fun port network hget => ?_
    have hport := hkeyed port network hget
    subst hport
    exact hget
  | shutdown => exact Always.pure ()

/-- Parts of a request that are about other ports. -/
theorem handNetwork_elsewhere {S : System → System → Prop} [Std.Refl S] [IsTrans System S]
    {port : UInt16}
    (hS : ∀ s s', Touch deploy (fun n => n ≠ portName NETNS_PREFIX port)
      (fun network => network.listen_port ≠ port) s s' → S s s')
    {entries : List (UInt16 × NetworkState)} (hkeyed : ∀ e ∈ entries, e.2.listen_port = e.1)
    (hne : ∀ e ∈ entries, e.1 ≠ port) :
    Always (InWorld S) (forM entries fun e => handNetwork os deploy e.1 e.2) := by
  refine Always.forM fun e he => handNetwork_always hS e.1 ?_
  rw [hkeyed e he]
  exact hne e he

theorem apply_entry_elsewhere {S : System → System → Prop} [Std.Refl S] [IsTrans System S]
    {port : UInt16}
    (hS : ∀ s s', Touch deploy (fun n => n ≠ portName NETNS_PREFIX port)
      (fun network => network.listen_port ≠ port) s s' → S s s') {names : List String}
    {entries : List (UInt16 × Option NetworkState)}
    (hkeyed : ∀ e ∈ entries, ∀ network ∈ e.2, network.listen_port = e.1)
    (hne : ∀ e ∈ entries, e.1 ≠ port) :
    Always (InWorld S) (forM entries (apply_entry os deploy names)) := by
  refine Always.forM fun e he => apply_entry_always hS (fun _ heq => ?_) fun network hn => ?_
  · exact hne e he (portName_injective _ heq)
  · rw [hkeyed e he network hn]
    exact hne e he

theorem elsewhere_leftAlone {port : UInt16} {s s' : System}
    (h : Touch deploy (fun n => n ≠ portName NETNS_PREFIX port)
      (fun network => network.listen_port ≠ port) s s') :
    LeftAlone (portName NETNS_PREFIX port) s s' :=
  h.leftAlone (fun hne => hne rfl) fun _ hne heq => hne (portName_injective _ heq).symm

theorem elsewhere_spared {port : UInt16} {network : NetworkState} (hport : network.listen_port = port)
    {s s' : System}
    (h : Touch deploy (fun n => n ≠ portName NETNS_PREFIX port)
      (fun other => other.listen_port ≠ port) s s') : Spared network s s' := by
  subst hport
  exact h.spared (fun hne => hne rfl) fun _ hne => hne

/-- What a request has made of the machine when it succeeds, and what it found. -/
structure Ended (deploy : Deployment) (request : GatewayRequest) (s s' : System) : Prop where
  gone : ∀ n, request.Dooms n → n ∉ s'.netns
  settled : ∀ network, request.Carries network → Settled deploy network s'
  nodup : ∀ network, request.Carries network → ∀ t ∈ network.addressing,
    (missing (s.addrs network.netns_name t.1) t.2).Nodup

/-- A full request comes to a network with its namespace as it was. -/
theorem apply_turn {config : GatewayConfig} {w w' : World}
    (h : (apply os deploy config).run w = .ok () w') {network : NetworkState}
    (hcarries : (network.listen_port, network) ∈ config.rekeyed) :
    ∃ u v : World, LeftAlone network.netns_name w.sys u.sys ∧
      (apply_network os deploy network).run u.machine = .ok () v.machine := by
  obtain ⟨_, t₁, hstore, h⟩ := bind_ok_iff.mp h
  cases hstore
  obtain ⟨names, t₂, hprep, h⟩ := bind_ok_iff.mp h
  obtain ⟨_, t₃, hremove, h⟩ := bind_ok_iff.mp h
  obtain ⟨_, t₄, hloop, _⟩ := bind_ok_iff.mp h
  obtain ⟨before, after, u, v, hsplit, hbefore, hrun, _⟩ := forM_split hloop _ hcarries
  have hkeyed : ∀ e ∈ config.rekeyed, e.2.listen_port = e.1 := GatewayConfig.rekeyed_keyed
  have hpairs := config.rekeyed_pairwise
  rw [hsplit] at hkeyed hpairs
  have hleft₂ : LeftAlone network.netns_name w.sys t₂.sys :=
    always_ok (prepare_leftAlone os network.netns_name) (onMachine_ok hprep).1
  have hleft₃ : LeftAlone network.netns_name t₂.sys t₃.sys := by
    have hall : Always (OnSys (LeftAlone network.netns_name))
        (remove_surplus os names (config.rekeyed.map fun e => e.2.netns_name)) := by
      refine remove_surplus_always (fun _ _ (ht : Touch deploy _ _ _ _) => elsewhere_leftAlone ht)
        fun n _ hnot heq => hnot ?_
      rw [heq]
      exact List.mem_map.mpr ⟨_, hcarries, rfl⟩
    exact always_ok hall (onMachine_ok hremove).1
  have hleft₄ : LeftAlone network.netns_name t₃.sys u.sys := by
    have hall : Always (InWorld (LeftAlone network.netns_name))
        (forM before fun e => handNetwork os deploy e.1 e.2) :=
      handNetwork_elsewhere (fun _ _ => elsewhere_leftAlone)
        (fun e he => hkeyed e (List.mem_append_left _ he)) fun e he =>
        (List.pairwise_append.mp hpairs).2.2 e he _ List.mem_cons_self
    exact hall.of_ok hbefore
  exact ⟨u, v, IsTrans.trans _ _ _ hleft₂ (IsTrans.trans _ _ _ hleft₃ hleft₄), (handNetwork_ok hrun).1⟩

theorem LeftAlone.nodup {network : NetworkState} {s s' : System}
    (h : LeftAlone network.netns_name s s')
    (hnodup : ∀ t ∈ network.addressing, (missing (s'.addrs network.netns_name t.1) t.2).Nodup) :
    ∀ t ∈ network.addressing, (missing (s.addrs network.netns_name t.1) t.2).Nodup := by
  intro t ht
  rw [← h.addrs]
  exact hnodup t ht

theorem apply_ended {config : GatewayConfig} {w w' : World}
    (h : (apply os deploy config).run w = .ok () w') :
    Ended deploy (.apply config) w.sys w'.sys := by
  refine ⟨fun n hdooms hn => ?_, fun network hcarries => apply_settled h _ hcarries,
    fun network hcarries => ?_⟩
  · obtain ⟨port, hp, heq⟩ := ((apply_describes h).names n hdooms.1).mp hn
    exact hdooms.2 port hp heq
  · obtain ⟨u, v, hleft, hrun⟩ := apply_turn h hcarries
    exact hleft.nodup (apply_network_nodup hrun)

/-- A diff comes to an entry with the port's namespace as it was and as it was listed, and leaves it
    as the entry has made it. -/
theorem apply_partial_turn {diff : GatewayConfigPartial} {w w' : World} (hkeyed : diff.Keyed)
    (h : (FractalGateway.apply_partial os deploy diff).run w = .ok () w')
    {e : UInt16 × Option NetworkState} (he : e ∈ diff.toList) :
    ∃ names u v, (portName NETNS_PREFIX e.1 ∈ names ↔ portName NETNS_PREFIX e.1 ∈ u.sys.netns) ∧
      LeftAlone (portName NETNS_PREFIX e.1) w.sys u.sys ∧
      (apply_entry os deploy names e).run u = .ok () v ∧
      LeftAlone (portName NETNS_PREFIX e.1) v.sys w'.sys ∧
      ∀ network : NetworkState, network.listen_port = e.1 → Spared network v.sys w'.sys := by
  obtain ⟨names, t₁, hprep, h⟩ := bind_ok_iff.mp h
  obtain ⟨_, t₂, hloop, h⟩ := bind_ok_iff.mp h
  obtain ⟨_, t₃, hget, hnginx⟩ := bind_ok_iff.mp h
  cases hget
  obtain ⟨before, after, u, v, hsplit, hbefore, hrun, hafter⟩ := forM_split hloop e he
  have hentries := hkeyed.entries
  have hpairs := OrdMap.toList_pairwise diff
  rw [hsplit] at hentries hpairs
  obtain ⟨_, hrest, hcross⟩ := List.pairwise_append.mp hpairs
  have hne : ∀ e' ∈ after, e'.1 ≠ e.1 := fun e' he' => ((List.pairwise_cons.mp hrest).1 e' he').symm
  have hkeyed' : ∀ e' ∈ after, ∀ network ∈ e'.2, network.listen_port = e'.1 := fun e' he' =>
    hentries e' (List.mem_append_right _ (List.mem_cons_of_mem _ he'))
  have hprep := (onMachine_ok hprep).1
  have hleft₁ := always_ok (prepare_leftAlone os (portName NETNS_PREFIX e.1)) hprep
  have hleft₂ : LeftAlone (portName NETNS_PREFIX e.1) t₁.sys u.sys := by
    have hall : Always (InWorld (LeftAlone (portName NETNS_PREFIX e.1)))
        (forM before (apply_entry os deploy names)) :=
      apply_entry_elsewhere (fun _ _ => elsewhere_leftAlone)
        (fun e' he' => hentries e' (List.mem_append_left _ he'))
        fun e' he' => hcross e' he' e List.mem_cons_self
    exact hall.of_ok hbefore
  obtain ⟨_, table, _, hsys⟩ := handNginx_ok hnginx
  refine ⟨names, u, v, ?_, IsTrans.trans _ _ _ hleft₁ hleft₂, hrun, ?_, fun network hport => ?_⟩
  · rw [(prepare_ok hprep).1, ← mem_netns_congr hleft₂.netns]
  · have hall : Always (InWorld (LeftAlone (portName NETNS_PREFIX e.1)))
        (forM after (apply_entry os deploy names)) :=
      apply_entry_elsewhere (fun _ _ => elsewhere_leftAlone) hkeyed' hne
    have hleft := hall.of_ok hafter
    rw [hsys]
    exact ⟨hleft.netns, hleft.files, hleft.inner⟩
  · have hall : Always (InWorld (Spared network)) (forM after (apply_entry os deploy names)) :=
      apply_entry_elsewhere (fun _ _ => elsewhere_spared hport) hkeyed' hne
    exact IsTrans.trans _ _ _ (hall.of_ok hafter) (handNginx_spared hnginx network)

theorem apply_partial_ended {diff : GatewayConfigPartial} {w w' : World} (hkeyed : diff.Keyed)
    (h : (FractalGateway.apply_partial os deploy diff).run w = .ok () w') :
    Ended deploy (.applyPartial diff) w.sys w'.sys := by
  refine ⟨?_, fun network hcarries => ?_, fun network hcarries => ?_⟩
  · rintro _ ⟨port, hget, rfl⟩ hn
    obtain ⟨names, u, v, hlisted, _, hrun, hleft, _⟩ :=
      apply_partial_turn hkeyed h ((OrdMap.mem_toList_iff _ _ _).mpr hget)
    rw [mem_netns_congr hleft.netns] at hn
    obtain ⟨_, t, hstore, hrest⟩ := bind_ok_iff.mp hrun
    cases hstore
    rcases skipIf_ok_iff.mp (onMachine_ok hrest).1 with ⟨hnot, hsame⟩ | ⟨_, hdel⟩
    · rw [World.sys, ← hsame] at hn
      exact hnot (hlisted.mpr hn)
    · rw [World.sys, (netns_del_ok hdel).2] at hn
      exact ((OrdMap.mem_erase _ _ _).mp hn).1 rfl
  · obtain ⟨names, u, v, _, _, hrun, _, hspared⟩ :=
      apply_partial_turn hkeyed h ((OrdMap.mem_toList_iff _ _ _).mpr hcarries)
    obtain ⟨_, t, hhand, hstore⟩ := bind_ok_iff.mp hrun
    cases hstore
    exact (apply_network_settled (handNetwork_ok hhand).1).spared (hspared network rfl)
  · obtain ⟨names, u, v, _, hleft, hrun, _, _⟩ :=
      apply_partial_turn hkeyed h ((OrdMap.mem_toList_iff _ _ _).mpr hcarries)
    obtain ⟨_, t, hhand, _⟩ := bind_ok_iff.mp hrun
    exact LeftAlone.nodup hleft (apply_network_nodup (handNetwork_ok hhand).1)

theorem respond_ended {request : GatewayRequest} {w w' : World} (hkeyed : request.Keyed)
    (h : (respond os deploy request).run w = .ok () w') : Ended deploy request w.sys w'.sys := by
  cases request with
  | apply config => exact apply_ended h
  | applyPartial diff => exact apply_partial_ended hkeyed h
  | shutdown => exact ⟨fun _ hd => hd.elim, fun _ hc => hc.elim, fun _ hc => hc.elim⟩

/-! ### Attempts -/

/-- What a request has stored when it succeeds. -/
def GatewayRequest.stores : GatewayRequest → GatewayConfig → GatewayConfig
  | .apply config => fun _ => config
  | .applyPartial diff => fun stored => stored.apply_partial diff
  | .shutdown => fun stored => stored

/-- The networks nginx serves when a request has succeeded, by what is stored then. -/
def GatewayRequest.serves : GatewayRequest → GatewayConfig → List (UInt16 × NetworkState)
  | .apply config => fun _ => config.rekeyed
  | .applyPartial _ => fun stored => stored.toList
  | .shutdown => fun _ => []

theorem respond_stored {request : GatewayRequest} {w w' : World}
    (h : (respond os deploy request).run w = .ok () w') : w'.stored = request.stores w.stored := by
  cases request with
  | apply config => exact (apply_describes h).stored
  | applyPartial diff => exact apply_partial_stored h
  | shutdown =>
    obtain ⟨_, rfl⟩ := pure_ok_iff.mp h
    rfl

theorem respond_nginx {request : GatewayRequest} (hrequest : request ≠ .shutdown) {w w' : World}
    (h : (respond os deploy request).run w = .ok () w') :
    ∃ table, Forwarding.build deploy ((request.serves w'.stored).map (·.2)) = .ok table ∧
      w'.sys.nginx_module = some table.nginx_conf ∧
      w'.sys.nginx_site = some table.sites_nginx_conf := by
  cases request with
  | apply config => exact (apply_describes h).nginx
  | applyPartial diff =>
    obtain ⟨names, t₁, _, h⟩ := bind_ok_iff.mp h
    obtain ⟨_, t₂, _, h⟩ := bind_ok_iff.mp h
    obtain ⟨_, t₃, hget, hnginx⟩ := bind_ok_iff.mp h
    cases hget
    obtain ⟨hstored, table, hbuild, hsys⟩ := handNginx_ok hnginx
    refine ⟨table, ?_, by rw [hsys], by rw [hsys]⟩
    rw [hstored]
    exact hbuild
  | shutdown => exact absurd rfl hrequest

end

/-- Any number of attempts of a request that all fail, each with failures of its own. -/
inductive Failed (deploy : Deployment) (request : GatewayRequest) : World → World → Prop where
  | none {w : World} : Failed deploy request w w
  | again {w w₁ w₂ : World} {e : Fail} (os : Os) : Failed deploy request w w₁ →
      (respond os deploy request).run w₁ = .error e w₂ → Failed deploy request w w₂

/-- The same stored configuration, machine and nginx files. -/
structure SameResult (w w' : World) : Prop where
  stored : w'.stored = w.stored
  machine : SameMachine w.sys w'.sys
  nginx_module : w'.sys.nginx_module = w.sys.nginx_module
  nginx_site : w'.sys.nginx_site = w.sys.nginx_site

section
variable {deploy : Deployment} {request : GatewayRequest} {w w₁ : World}

theorem Failed.touches (h : Failed deploy request w w₁) (hkeyed : request.Keyed) :
    Relation.ReflTransGen (Touch deploy request.Dooms request.Carries) w.sys w₁.sys := by
  induction h with
  | none => exact .refl
  | again os _ hrun ih => exact ih.trans ((respond_touches hkeyed).of_error hrun)

/-- Failed attempts store nothing the request would not store anyway. -/
theorem Failed.stores (h : Failed deploy request w w₁) :
    request.stores w₁.stored = request.stores w.stored := by
  induction h with
  | none => rfl
  | again os _ hrun ih =>
    rw [← ih]
    cases request with
    | apply config => rfl
    | applyPartial diff =>
      obtain ⟨bound, hstored⟩ := apply_partial_error_stored hrun
      show GatewayConfig.apply_partial _ diff = _
      rw [hstored, GatewayConfig.apply_partial_below]
      rfl
    | shutdown => cases hrun

theorem Failed.completed {os : Os} {w' : World} (h : Failed deploy request w w₁)
    (hkeyed : request.Keyed) (hrun : (respond os deploy request).run w₁ = .ok () w') :
    Completed deploy request.Dooms request.Carries w.sys w'.sys := by
  have hended := respond_ended hkeyed hrun
  exact ⟨(h.touches hkeyed).trans ((respond_touches hkeyed).of_ok hrun), hended.gone, hended.settled⟩

end

/-- Failed requests may be sent again. However often a request has failed, and wherever, an attempt
    that succeeds leaves what the first one would have left, had it succeeded. -/
theorem retry_makes_no_difference (os₁ os₂ : Os) (deploy : Deployment) (request : GatewayRequest)
    (hrequest : request ≠ .shutdown) (hkeyed : request.Keyed) (w w₁ w' w'' : World)
    (hfailed : Failed deploy request w w₁)
    (hretry : (respond os₁ deploy request).run w₁ = .ok () w')
    (honce : (respond os₂ deploy request).run w = .ok () w'') : SameResult w' w'' := by
  have hstored : w''.stored = w'.stored := by
    rw [respond_stored hretry, respond_stored honce, hfailed.stores]
  obtain ⟨table, hbuild, hmodule, hsite⟩ := respond_nginx hrequest hretry
  obtain ⟨table', hbuild', hmodule', hsite'⟩ := respond_nginx hrequest honce
  rw [hstored] at hbuild'
  obtain rfl : table = table' := Except.ok.inj (hbuild.symm.trans hbuild')
  refine ⟨hstored, ?_, hmodule'.trans hmodule.symm, hsite'.trans hsite.symm⟩
  exact (hfailed.completed hkeyed hretry).same (Failed.none.completed hkeyed honce)
    request.carries_apart (fun _ _ => GatewayRequest.carries_unique)
    (respond_ended hkeyed honce).nodup

/-- The thirteenth command fails. -/
def Bench.interrupted : Os := { Bench.os with fails := fun k => k == 12 }

/-- A request that fails half way, over a network to remove and one with other settings, and is sent
    again. -/
theorem retry_makes_no_difference_interrupted :
    SameResult
      (final ((apply Bench.interrupted Bench.deploy (Bench.config 5000 (Bench.bare 5000))).run
        (final ((apply Bench.interrupted Bench.deploy (Bench.config 5000 (Bench.bare 5000))).run
          Bench.messy))))
      (final ((apply Bench.os Bench.deploy (Bench.config 5000 (Bench.bare 5000))).run
        Bench.messy)) := by
  obtain ⟨e, hfail⟩ := error_of_not_returned
    (x := apply Bench.interrupted Bench.deploy (Bench.config 5000 (Bench.bare 5000)))
    (s := Bench.messy) (by decide +kernel)
  exact retry_makes_no_difference Bench.interrupted Bench.os Bench.deploy
    (.apply (Bench.config 5000 (Bench.bare 5000))) (by simp) (Bench.config_keyed (Bench.bare 5000))
    Bench.messy _ _ _ (.again Bench.interrupted .none hfail) (ok_of_returned (by decide +kernel))
    (ok_of_returned (by decide +kernel))

end FractalGateway
