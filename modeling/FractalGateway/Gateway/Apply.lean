import FractalGateway.Gateway.System

/-! The gateway's requests: applying a whole configuration, and applying a diff.

    Below `apply` and `apply_partial` everything works on the machine alone. The two requests also
    hold the stored configuration, which `apply` replaces before it does anything and
    `apply_partial` updates entry by entry, so a request that fails half way leaves both the machine
    and the stored configuration half way.

    `handed` is a record for the proofs: the networks given to `apply_network` and `apply_nginx`,
    each with the port it is stored under. -/

namespace FractalGateway
open Std Exec

def BRIDGE_INTERFACE : String := "ensbr0"

/-! ### Interfaces -/

section Machine
variable (os : Os)

def apply_addr (netns : Option String) (interface : String) (target : List IpNet) :
    EStateM Fail Machine Unit := do
  let current ← addr_list os netns interface
  forM target fun addr => skipIf (addr ∈ current) (addr_add os netns interface addr)

def apply_interface_up (netns : Option String) (interface : String) : EStateM Fail Machine Unit := do
  let status ← interface_show os netns interface
  skipIf (status.down = false) (interface_up os netns interface)

def apply_link_master (netns : Option String) (interface master : String) :
    EStateM Fail Machine Unit := do
  let current ← link_get_master os netns interface
  skipIf (¬(current = none ∨ current ≠ some master))
    (context "Setting master of interface" (link_set_master os netns interface master))

def apply_bridge (addr : List IpNet) : EStateM Fail Machine Unit := do
  let present ← bridge_exists os BRIDGE_INTERFACE
  skipIf present (bridge_add os BRIDGE_INTERFACE)
  context "Setting up bridge interface" (apply_addr os none BRIDGE_INTERFACE addr)
  context "Bringing bridge interface up" (apply_interface_up os none BRIDGE_INTERFACE)

/-! ### One network -/

variable (deploy : Deployment)

def apply_netns (network : NetworkState) : EStateM Fail Machine Unit := do
  let present ← netns_exists os network.netns_name
  skipIf present (netns_add os network.netns_name)

/-- The file of a WireGuard interface, below its namespace's directory. -/
def confPath (wgif : String) : String := "wireguard/" ++ wgif ++ ".conf"

def apply_wireguard (network : NetworkState) : EStateM Fail Machine Unit := do
  let netns := network.netns_name
  let wgif := network.wgif_name
  let present ← wireguard_exists os netns wgif
  skipIf present (wireguard_create os netns wgif)
  let shown ← interface_show os (some netns) wgif
  let mtu ← liftE (match shown.mtu with
    | some mtu => .ok mtu
    | none => .error (.err ["Missing MTU for WireGuard network"]))
  skipIf (mtu = network.mtu) (interface_mtu os (some netns) wgif network.mtu)
  context "Setting wireguard interface UP" (apply_interface_up os (some netns) wgif)
  netns_write_file os netns (confPath wgif) (network.to_config deploy.keys)
  context "Applying wireguard interface addresses"
    (apply_addr os (some netns) wgif network.address)
  wireguard_syncconf os netns wgif

def apply_veth (network : NetworkState) : EStateM Fail Machine Unit := do
  let netns := network.netns_name
  let veth_name := network.veth_name
  let present ← veth_exists os netns veth_name
  skipIf present (veth_add os netns veth_name)
  context "Applying veth addr" (apply_addr os (some netns) veth_name [network.veth_ipv4net.toIpNet])
  context "Setting veth master" (apply_link_master os none veth_name BRIDGE_INTERFACE)
  context "Making inner veth interface UP" (apply_interface_up os (some netns) veth_name)
  context "Marking outer veth interface UP" (apply_interface_up os none veth_name)

def apply_forwarding (network : NetworkState) : EStateM Fail Machine Unit := do
  let netns := network.netns_name
  let config ← liftE (network.port_config deploy.build)
  let savefile := clean_iptables config.render
  let current ← iptables_save os netns
  skipIf (¬savefile ≠ clean_iptables current) (iptables_restore os netns savefile)

def apply_network (network : NetworkState) : EStateM Fail Machine Unit := do
  apply_netns os network
  apply_wireguard os deploy network
  apply_veth os network
  apply_forwarding os deploy network

def apply_nginx (networks : List NetworkState) : EStateM Fail Machine Unit := do
  let forwarding ← liftE (Forwarding.build deploy networks)
  write_module os forwarding.nginx_conf
  write_site os forwarding.sites_nginx_conf
  nginx_reload os

end Machine

/-! ### Requests -/

/-- The stored configuration, the machine, and the networks handed on so far. -/
structure World where
  stored : GatewayConfig
  machine : Machine
  handed : List (UInt16 × NetworkState)

/-- The system of a world's machine. -/
abbrev World.sys (w : World) : System := w.machine.sys

/-- Work on the machine. -/
def onMachine {α : Type} (x : EStateM Fail Machine α) : EStateM Fail World α :=
  zoom World.machine (fun m w => { w with machine := m }) x

def store (f : GatewayConfig → GatewayConfig) : EStateM Fail World Unit :=
  modify fun w => { w with stored := f w.stored }

/-- Take note of networks that are about to be handed on. -/
def hand (networks : List (UInt16 × NetworkState)) : EStateM Fail World Unit :=
  modify fun w => { w with handed := w.handed ++ networks }

/-- A configuration's networks, each carrying the port it is stored under. -/
def GatewayConfig.rekeyed (config : GatewayConfig) : List (UInt16 × NetworkState) :=
  config.toList.map fun e => (e.1, { e.2 with listen_port := e.1 })

section Requests
variable (os : Os) (deploy : Deployment)

/-- Both requests begin with the bridge and the namespaces there are. -/
def prepare : EStateM Fail Machine (List String) := do
  context "Creating bridge interface" (apply_bridge os [BRIDGE_NET.toIpNet])
  netns_list os

/-- The loop over the namespaces that are not expected. -/
def remove_surplus (names expected : List String) : EStateM Fail Machine Unit := do
  let m ← get
  forM (os.order m.steps (names.filter fun netns => decide (netns ∉ expected))) fun netns =>
    skipIf (¬starts_with netns NETNS_PREFIX)
      (context "Removing surplus network namespace" (netns_del os netns))

/-- Hand a network to `apply_network`. -/
def handNetwork (port : UInt16) (network : NetworkState) : EStateM Fail World Unit := do
  hand [(port, network)]
  onMachine (apply_network os deploy network)

/-- Hand the networks to `apply_nginx`. -/
def handNginx (networks : List (UInt16 × NetworkState)) : EStateM Fail World Unit := do
  hand networks
  onMachine (context "Applying nginx configuration" (apply_nginx os deploy (networks.map (·.2))))

def apply (config : GatewayConfig) : EStateM Fail World Unit := do
  store fun _ => config
  let state := config.rekeyed
  let names ← onMachine (prepare os)
  onMachine (remove_surplus os names (state.map fun e => e.2.netns_name))
  forM state fun e => handNetwork os deploy e.1 e.2
  handNginx os deploy state

/-- One entry of a diff, given the namespaces there were when the request began. -/
def apply_entry (names : List String) : UInt16 × Option NetworkState → EStateM Fail World Unit
  | (port, none) => do
    store fun stored => stored.erase port
    onMachine (skipIf (portName NETNS_PREFIX port ∉ names)
      (netns_del os (portName NETNS_PREFIX port)))
  | (port, some network) => do
    handNetwork os deploy port network
    store fun stored => stored.insert port network

def apply_partial (diff : GatewayConfigPartial) : EStateM Fail World Unit := do
  let names ← onMachine (prepare os)
  forM diff.toList (apply_entry os deploy names)
  let w ← get
  handNginx os deploy w.stored.toList

/-- What a request runs. -/
def respond : GatewayRequest → EStateM Fail World Unit
  | .apply config => apply os deploy config
  | .applyPartial diff => apply_partial os deploy diff
  | .shutdown => pure ()

/-- The requests of the manager in order, each answered whether it succeeded or not, up to a
    shutdown. -/
def serve : List GatewayRequest → World → World
  | [], w => w
  | .shutdown :: _, w => w
  | request :: requests, w => serve requests (final ((respond os deploy request).run w))

end Requests

/-! ### A machine to run on -/

namespace Bench

/-- Nothing fails, and saved rules come back with a comment in front. -/
def os : Os where
  fails _ := false
  error _ := []
  noise _ nat := "#" ++ " Generated by iptables-save" ++ "\n" ++ nat
  noise_clean _ nat := clean_iptables_comment (by decide) (by decide) nat
  order _ names := names
  order_perm _ _ := List.Perm.refl _

/-- The base32 text of the host below; other hosts get texts outside the alphabet. -/
def base32 (host : String) : String :=
  if host = "a.example" then "MEXGK6DBNVYGYZI" else "0" ++ host

def deploy : Deployment where
  build := .debug
  base32 := base32
  keys := {
    pubkey _ := "AAAAAAAAAAAAAAAAAAAAAAAAAAAAAAAAAAAAAAAAAAA="
    privkey _ := "AAAAAAAAAAAAAAAAAAAAAAAAAAAAAAAAAAAAAAAAAAA="
    secret _ := "AAAAAAAAAAAAAAAAAAAAAAAAAAAAAAAAAAAAAAAAAAA=" }
  custom_forwarding := []

def url : Url := ⟨"https://a.example/", "https", some "a.example", fun _ => rfl⟩

def network (listen_port : UInt16) : NetworkState where
  private_key := ⟨0⟩
  listen_port := listen_port
  mtu := 1400
  address := [⟨.v4 (Ipv4Addr.new 10 0 0 1), 24⟩]
  peers := ∅
  proxy := (∅ : ExtTreeMap Url (List SocketAddr)).insert url [.v4 (Ipv4Addr.new 10 0 0 2) 8080]

/-- A network that proxies nothing. -/
def bare (listen_port : UInt16) : NetworkState := { network listen_port with proxy := ∅ }

def config (port : UInt16) (network : NetworkState) : GatewayConfig :=
  (∅ : GatewayConfig).insert port network

def diff (port : UInt16) (network : NetworkState) : GatewayConfigPartial :=
  (∅ : GatewayConfigPartial).insert port (some network)

def removal (port : UInt16) : GatewayConfigPartial := (∅ : GatewayConfigPartial).insert port none

theorem base32_injective : Function.Injective base32 := by
  have hother : ∀ s : String, "0" ++ s ≠ "MEXGK6DBNVYGYZI" := by
    intro s h
    have hl := congrArg String.toList h
    simp at hl
  intro a b h
  unfold base32 at h
  split at h
  · next ha =>
    split at h
    · next hb => rw [ha, hb]
    · exact absurd h.symm (hother b)
  · split at h
    · exact absurd h (hother a)
    · have hl := congrArg String.toList h
      simp only [String.toList_append, List.append_cancel_left_eq] at hl
      exact String.toList_inj.mp hl

theorem get_config {port port' : UInt16} {network network' : NetworkState}
    (h : (config port network)[port']? = some network') : port = port' ∧ network = network' := by
  rw [config, OrdMap.get_insert] at h
  split at h
  · next hp => exact ⟨hp, Option.some.inj h⟩
  · simp at h

theorem get_diff {port port' : UInt16} {network network' : NetworkState}
    (h : (diff port network)[port']? = some (some network')) : port = port' ∧ network = network' := by
  rw [diff, OrdMap.get_insert] at h
  split at h
  · next hp => exact ⟨hp, Option.some.inj (Option.some.inj h)⟩
  · simp at h

theorem get_removal {port port' : UInt16} {network : NetworkState} :
    (removal port)[port']? ≠ some (some network) := by
  rw [removal, OrdMap.get_insert]
  split <;> simp

/-- Nothing stored, nothing configured. -/
def world : World := ⟨∅, ⟨⟨∅, ∅, ∅, fun _ _ => none, none, none⟩, 0⟩, []⟩

/-- A network to remove, one with other settings, and a namespace of somebody else's. -/
def messy : World where
  stored := config 7 (network 0)
  machine := {
    sys := { world.sys with
      netns := (((∅ : ExtTreeMap String Netns).insert "network-7" ⟨∅, ""⟩).insert "other" ⟨∅, ""⟩).insert
        "network-5000" ⟨(∅ : ExtTreeMap String Iface).insert "wg5000" (Iface.new 1500), "*nat\nCOMMIT\n"⟩
      nginx_site := some "" }
    steps := 0 }
  handed := []

end Bench

end FractalGateway
