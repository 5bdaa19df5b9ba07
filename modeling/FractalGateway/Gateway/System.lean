import FractalGateway.Gateway.Templates

/-! The machine the gateway configures, and the commands it configures it with.

    The commands are those of the `fractal-networking-wrappers` crate: each is a step on an explicit
    state of namespaces, links, addresses and nat rules, carried out whole or not at all. A command
    fails when it has nothing to work on (an interface that is not there, a name that is taken), and
    otherwise whenever the machine says so: `Os` decides for every command of a run, by its number,
    whether it fails, what it reports then, and how much noise `iptables-save` prints around the
    rules.

    A veth link joins the root namespace to a named one and carries one name at both ends, which is
    how `veth_add(netns, name, name)` makes it. Deleting a namespace deletes what is in it, its veth
    links included; the files kept for it under /etc/netns stay. -/

namespace FractalGateway
open Std Exec

/-! ### State -/

/-- What `ip` and `wg` tell of an interface; `conf` is the configuration a WireGuard interface was
    last synchronised with. -/
structure Iface where
  mtu : Option ℕ
  down : Bool
  addrs : List IpNet
  master : Option String
  conf : Option String
  deriving DecidableEq

/-- A new interface. -/
def Iface.new (mtu : ℕ) : Iface := ⟨some mtu, true, [], none, none⟩

/-- A veth link: the namespace it leads to, and its ends there and in the root namespace. -/
structure Veth where
  netns : String
  inner : Iface
  outer : Iface

/-- A namespace: its WireGuard interfaces and its nat table. -/
structure Netns where
  wireguard : ExtTreeMap String Iface
  nat : String

structure System where
  bridge : ExtTreeMap String Iface
  netns : ExtTreeMap String Netns
  veth : ExtTreeMap String Veth
  netns_files : String → String → Option String
  nginx_module : Option String
  nginx_site : Option String

/-- The system, and the number of commands run so far. -/
structure Machine where
  sys : System
  steps : ℕ

/-- An interface by its namespace (the root namespace if none is given) and name. -/
def System.iface (sys : System) : Option String → String → Option Iface
  | none, name => (sys.veth[name]?.map (·.outer)).or sys.bridge[name]?
  | some netns, name =>
    (sys.netns[netns]?.bind (·.wireguard[name]?)).or
      ((sys.veth[name]?.filter (·.netns = netns)).map (·.inner))

/-- Change an interface, if it is there. -/
def System.alter (sys : System) (f : Iface → Iface) : Option String → String → System
  | none, name => { sys with
      bridge := sys.bridge.modify name f
      veth := sys.veth.modify name fun v => { v with outer := f v.outer } }
  | some netns, name => { sys with
      netns := sys.netns.modify netns fun ns => { ns with wireguard := ns.wireguard.modify name f }
      veth := sys.veth.modify name fun v =>
        if v.netns = netns then { v with inner := f v.inner } else v }

/-! ### Commands -/

/-- What the machine decides by itself, command by command. `order` is the order in which a hash
    set is iterated. -/
structure Os where
  fails : ℕ → Bool
  error : ℕ → List String
  noise : ℕ → String → String
  noise_clean : ∀ k nat, clean_iptables (noise k nat) = clean_iptables nat
  order : ℕ → List String → List String
  order_perm : ∀ k names, (order k names).Perm names

/-- A command: what it returns and leaves behind, or nothing when it cannot be carried out. -/
def command {α : Type} (os : Os) (act : ℕ → System → Option (α × System)) :
    EStateM Fail Machine α := fun m =>
  match if os.fails m.steps then none else act m.steps m.sys with
  | some (a, sys) => .ok a ⟨sys, m.steps + 1⟩
  | none => .error (.err (os.error m.steps)) ⟨m.sys, m.steps + 1⟩

section Commands
variable (os : Os)

/-- A command on an interface, which must be there. -/
def onIface {α : Type} (netns : Option String) (interface : String)
    (act : Iface → System → Option (α × System)) : EStateM Fail Machine α :=
  command os fun _ sys => (sys.iface netns interface).bind fun i => act i sys

def netns_list : EStateM Fail Machine (List String) :=
  command os fun _ sys => some (sys.netns.keys, sys)

def netns_exists (name : String) : EStateM Fail Machine Bool :=
  command os fun _ sys => some (sys.netns.contains name, sys)

def netns_add (name : String) : EStateM Fail Machine Unit :=
  command os fun _ sys =>
    if name ∈ sys.netns then none
    else some ((), { sys with netns := sys.netns.insert name ⟨∅, ""⟩ })

def netns_del (name : String) : EStateM Fail Machine Unit :=
  command os fun _ sys =>
    if name ∈ sys.netns then
      some ((), { sys with
        netns := sys.netns.erase name
        veth := sys.veth.filter fun _ v => decide (v.netns ≠ name) })
    else none

/-- Write a file below the namespace's directory in /etc/netns. -/
def netns_write_file (netns path contents : String) : EStateM Fail Machine Unit :=
  command os fun _ sys => some ((), { sys with
    netns_files := fun n p =>
      if n = netns ∧ p = path then some contents else sys.netns_files n p })

def wireguard_exists (netns name : String) : EStateM Fail Machine Bool :=
  command os fun _ sys => sys.netns[netns]?.map fun ns => (ns.wireguard.contains name, sys)

def wireguard_create (netns name : String) : EStateM Fail Machine Unit :=
  command os fun _ sys =>
    if (sys.iface (some netns) name).isSome then none
    else sys.netns[netns]?.map fun ns => ((), { sys with
      netns := sys.netns.insert netns
        { ns with wireguard := ns.wireguard.insert name (Iface.new 1420) } })

/-- Give a WireGuard interface the configuration in its file. -/
def wireguard_syncconf (netns name : String) : EStateM Fail Machine Unit :=
  command os fun _ sys =>
    (sys.netns_files netns ("wireguard/" ++ name ++ ".conf")).bind fun conf =>
      (sys.iface (some netns) name).map fun _ =>
        ((), sys.alter (fun i => { i with conf := some conf }) (some netns) name)

def interface_show (netns : Option String) (interface : String) : EStateM Fail Machine Iface :=
  onIface os netns interface fun i sys => some (i, sys)

def interface_mtu (netns : Option String) (interface : String) (mtu : ℕ) :
    EStateM Fail Machine Unit :=
  onIface os netns interface fun _ sys =>
    some ((), sys.alter (fun i => { i with mtu := some mtu }) netns interface)

def interface_up (netns : Option String) (interface : String) : EStateM Fail Machine Unit :=
  onIface os netns interface fun _ sys =>
    some ((), sys.alter (fun i => { i with down := false }) netns interface)

def addr_list (netns : Option String) (interface : String) : EStateM Fail Machine (List IpNet) :=
  onIface os netns interface fun i sys => some (i.addrs, sys)

def addr_add (netns : Option String) (interface : String) (addr : IpNet) :
    EStateM Fail Machine Unit :=
  onIface os netns interface fun i sys =>
    if addr ∈ i.addrs then none
    else some ((), sys.alter (fun i => { i with addrs := i.addrs ++ [addr] }) netns interface)

def link_get_master (netns : Option String) (interface : String) :
    EStateM Fail Machine (Option String) :=
  onIface os netns interface fun i sys => some (i.master, sys)

def link_set_master (netns : Option String) (interface master : String) :
    EStateM Fail Machine Unit :=
  onIface os netns interface fun _ sys =>
    if master ∈ sys.bridge then
      some ((), sys.alter (fun i => { i with master := some master }) netns interface)
    else none

def bridge_exists (name : String) : EStateM Fail Machine Bool :=
  command os fun _ sys => some (sys.bridge.contains name, sys)

def bridge_add (name : String) : EStateM Fail Machine Unit :=
  command os fun _ sys =>
    if (sys.iface none name).isSome then none
    else some ((), { sys with bridge := sys.bridge.insert name (Iface.new 1500) })

def veth_exists (netns name : String) : EStateM Fail Machine Bool :=
  command os fun _ sys => some ((sys.veth[name]?.filter (·.netns = netns)).isSome, sys)

/-- `veth_add(netns, name, name)`. -/
def veth_add (netns name : String) : EStateM Fail Machine Unit :=
  command os fun _ sys =>
    if netns ∉ sys.netns ∨ (sys.iface none name).isSome ∨ (sys.iface (some netns) name).isSome then
      none
    else some ((), { sys with
      veth := sys.veth.insert name ⟨netns, Iface.new 1500, Iface.new 1500⟩ })

def iptables_save (netns : String) : EStateM Fail Machine String :=
  command os fun k sys => sys.netns[netns]?.map fun ns => (os.noise k ns.nat, sys)

def iptables_restore (netns rules : String) : EStateM Fail Machine Unit :=
  command os fun _ sys => sys.netns[netns]?.map fun ns =>
    ((), { sys with netns := sys.netns.insert netns { ns with nat := rules } })

/-- `tokio::fs::write(NGINX_MODULE_PATH, config)`. -/
def write_module (config : String) : EStateM Fail Machine Unit :=
  command os fun _ sys => some ((), { sys with nginx_module := some config })

/-- `tokio::fs::write(NGINX_SITE_PATH, config)`. -/
def write_site (config : String) : EStateM Fail Machine Unit :=
  command os fun _ sys => some ((), { sys with nginx_site := some config })

def nginx_reload : EStateM Fail Machine Unit := command os fun _ sys => some ((), sys)

end Commands

/-! ### Reading a command -/

theorem command_ok {α : Type} {os : Os} {act : ℕ → System → Option (α × System)} {m m' : Machine}
    {a : α} (h : (command os act).run m = .ok a m') : act m.steps m.sys = some (a, m'.sys) := by
  simp only [command, EStateM.run] at h
  split at h
  · next b sys hact =>
    split at hact
    · cases hact
    · cases h
      exact hact
  · cases h

/-- A command that fails has no effect. -/
theorem command_error {α : Type} {os : Os} {act : ℕ → System → Option (α × System)}
    {m m' : Machine} {e : Fail} (h : (command os act).run m = .error e m') : m'.sys = m.sys := by
  simp only [command, EStateM.run] at h
  split at h
  · cases h
  · cases h
    rfl

theorem onIface_ok {α : Type} {os : Os} {netns : Option String} {interface : String}
    {act : Iface → System → Option (α × System)} {m m' : Machine} {a : α}
    (h : (onIface os netns interface act).run m = .ok a m') :
    ∃ i, m.sys.iface netns interface = some i ∧ act i m.sys = some (a, m'.sys) :=
  Option.bind_eq_some_iff.mp (command_ok h)

theorem onIface_error {α : Type} {os : Os} {netns : Option String} {interface : String}
    {act : Iface → System → Option (α × System)} {m m' : Machine} {e : Fail}
    (h : (onIface os netns interface act).run m = .error e m') : m'.sys = m.sys :=
  command_error h

/-- A relation between systems, on the machines that hold them. -/
def OnSys (S : System → System → Prop) (m m' : Machine) : Prop := S m.sys m'.sys

instance {S : System → System → Prop} [Std.Refl S] : Std.Refl (OnSys S) :=
  ⟨fun m => Std.Refl.refl m.sys⟩

instance {S : System → System → Prop} [IsTrans System S] : IsTrans Machine (OnSys S) :=
  ⟨fun _ _ _ h h' => IsTrans.trans (r := S) _ _ _ h h'⟩

/-- What `g` reads of the system is as it was. -/
def Unchanged {β : Type} (g : System → β) (s s' : System) : Prop := g s' = g s

instance {β : Type} (g : System → β) : Std.Refl (Unchanged g) := ⟨fun _ => rfl⟩

instance {β : Type} (g : System → β) : IsTrans System (Unchanged g) :=
  ⟨fun _ _ _ h h' => h'.trans h⟩

theorem command_always {α : Type} {S : System → System → Prop} [Std.Refl S] {os : Os}
    {act : ℕ → System → Option (α × System)}
    (h : ∀ k sys a sys', act k sys = some (a, sys') → S sys sys') :
    Always (OnSys S) (command os act) := by
  intro m
  simp only [command, EStateM.run, OnSys]
  split
  · next a sys hact =>
    split at hact
    · cases hact
    · exact h _ _ _ _ hact
  · exact Std.Refl.refl m.sys

/-- A command that only looks changes nothing. -/
theorem onIface_always {α : Type} {S : System → System → Prop} [Std.Refl S] {os : Os}
    {netns : Option String} {interface : String} {act : Iface → System → Option (α × System)}
    (h : ∀ i sys a sys', act i sys = some (a, sys') → S sys sys') :
    Always (OnSys S) (onIface os netns interface act) := by
  refine command_always fun k sys a sys' hact => ?_
  obtain ⟨i, _, hi⟩ := Option.bind_eq_some_iff.mp hact
  exact h i sys a sys' hi

end FractalGateway
