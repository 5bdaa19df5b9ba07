import FractalGateway.Gateway.Diffs
import FractalGateway.Gateway.Effects
import FractalGateway.Gateway.Mirror

/-! The process: starting up, and starting again on a machine that an earlier process has left.

        Options::run:  global ──▶ startup ──▶ connect (requests …)
                       nothing    nginx's files,
                       stored     if there are none

    The stored configuration lives in the process and the networks live on the machine, so a new
    process finds networks it knows nothing of. Starting looks at one file of nginx's two and, when it
    is there, does nothing at all: networks and proxies of the process before go on as they were. A
    diff is another matter. It is folded into what is stored, and that is nothing. -/

namespace FractalGateway
open Std Exec

section
variable (os : Os) (deploy : Deployment)

/-- `startup`: write nginx's files unless the module file is there. -/
def startup : EStateM Fail Machine Unit := do
  let m ← get
  skipIf (m.sys.nginx_module.isSome = true) (apply_nginx os deploy [])

/-- What a process has when it starts: nothing stored, and the machine as it is. -/
def World.fresh (machine : Machine) : World := ⟨∅, machine, []⟩

end

/-- A process: its options, and what it is asked for. -/
structure Life where
  deploy : Deployment
  requests : List GatewayRequest

/-- `Options::run`: a start that fails ends the process. -/
def Life.run (os : Os) (life : Life) (machine : Machine) : Machine :=
  match (context "Starting up gateway" (startup os life.deploy)).run machine with
  | .ok _ m => (serve os life.deploy life.requests (World.fresh m)).machine
  | .error _ m => m

/-- Processes one after another. -/
def lives (os : Os) (lives : List Life) (machine : Machine) : Machine :=
  lives.foldl (fun m life => life.run os m) machine

/-! ### Starting -/

section
variable {os : Os} {deploy : Deployment}

/-- Where the module file is, a start runs no command. -/
theorem startup_of_module {m : Machine} (h : m.sys.nginx_module.isSome = true) :
    (startup os deploy).run m = .ok () m := by
  show (skipIf (m.sys.nginx_module.isSome = true) (apply_nginx os deploy [])).run m = .ok () m
  rw [skipIf, if_pos h]
  rfl

/-- Where it is not, a start is `apply_nginx` without networks. -/
theorem startup_of_no_module {m : Machine} (h : m.sys.nginx_module = none) :
    (startup os deploy).run m = (apply_nginx os deploy []).run m := by
  show (skipIf (m.sys.nginx_module.isSome = true) (apply_nginx os deploy [])).run m = _
  rw [skipIf, if_neg (by simp [h])]

/-- The module file is there and stays there. -/
def ModuleStays (s s' : System) : Prop :=
  s.nginx_module.isSome = true → s'.nginx_module.isSome = true

instance : Std.Refl ModuleStays := ⟨fun _ h => h⟩

instance : IsTrans System ModuleStays := ⟨fun _ _ _ h h' hs => h' (h hs)⟩

theorem Touch.moduleStays {doomed : String → Prop} {networks : NetworkState → Prop} {s s' : System}
    (h : Touch deploy doomed networks s s') : ModuleStays s s' := by
  cases h with
  | bridge | delete | nginx_site | outer => exact id
  | nginx_module config => exact fun _ => rfl
  | network hnetwork hchange => cases hchange <;> exact id

/-- Whatever a request does, the module file stays. -/
theorem respond_moduleStays (request : GatewayRequest) :
    Always (InWorld ModuleStays) (respond os deploy request) := by
  have htouch : ∀ s s', Touch deploy (fun _ => True) (fun _ => True) s s' → ModuleStays s s' :=
    fun _ _ h => h.moduleStays
  cases request with
  | apply config =>
    exact apply_always htouch (fun _ _ _ => trivial) fun _ _ => trivial
  | applyPartial diff =>
    exact apply_partial_always htouch (fun _ _ => trivial) fun _ _ _ => trivial
  | shutdown => exact Always.pure ()

theorem serve_moduleStays : ∀ (requests : List GatewayRequest) (w : World),
    ModuleStays w.sys (serve os deploy requests w).sys
  | [], w => id
  | request :: requests, w => by
      have hfirst : ModuleStays w.sys (final ((respond os deploy request).run w)).sys :=
        respond_moduleStays request w
      have hrest := serve_moduleStays requests (final ((respond os deploy request).run w))
      cases request with
      | apply config => exact fun hs => hrest (hfirst hs)
      | applyPartial diff => exact fun hs => hrest (hfirst hs)
      | shutdown => exact id

theorem Life.run_module {life : Life} {m : Machine} (h : m.sys.nginx_module.isSome = true) :
    (life.run os m).sys.nginx_module.isSome = true := by
  have hstart : (context "Starting up gateway" (startup os life.deploy)).run m = .ok () m :=
    context_ok_iff.mpr (startup_of_module h)
  rw [Life.run, hstart]
  exact serve_moduleStays life.requests (World.fresh m) h

theorem lives_module : ∀ (ls : List Life) {m : Machine}, m.sys.nginx_module.isSome = true →
    (lives os ls m).sys.nginx_module.isSome = true
  | [], _, h => h
  | _ :: ls, _, h => lives_module ls (Life.run_module h)

end

section
variable {os : Os} {deploy : Deployment}

/-- Writing nginx's files fails before the first, before the second or after both. -/
theorem apply_nginx_error {networks : List NetworkState} {m m' : Machine} {e : Fail}
    (h : (apply_nginx os deploy networks).run m = .error e m') :
    m'.sys = m.sys ∨ ∃ table, Forwarding.build deploy networks = .ok table ∧
      (m'.sys = { m.sys with nginx_module := some table.nginx_conf } ∨
        m'.sys = { m.sys with
          nginx_module := some table.nginx_conf
          nginx_site := some table.sites_nginx_conf }) := by
  rcases bind_error_iff.mp h with hbuild | ⟨table, t₁, htable, h⟩
  · left
    have hkept : Always (OnSys (Unchanged id)) (liftE (Forwarding.build deploy networks)) :=
      Always.liftE _
    exact hkept.of_error hbuild
  obtain ⟨hbuild, rfl⟩ := liftE_ok_iff.mp htable
  rcases bind_error_iff.mp h with hmodule | ⟨_, t₂, hmodule, h⟩
  · exact Or.inl (command_error hmodule)
  obtain ⟨_, h₂⟩ := Prod.mk.inj (Option.some.inj (command_ok hmodule))
  refine Or.inr ⟨table, hbuild, ?_⟩
  rcases bind_error_iff.mp h with hsite | ⟨_, t₃, hsite, hreload⟩
  · left
    rw [command_error hsite, ← h₂]
  · right
    obtain ⟨_, h₃⟩ := Prod.mk.inj (Option.some.inj (command_ok hsite))
    rw [command_error hreload, ← h₃, ← h₂]

/-- Starting again and again, with nobody asking for anything. -/
theorem lives_idle : ∀ (starts : List Deployment) {m : Machine}, m.sys.nginx_module.isSome = true →
    lives os (starts.map fun deploy => ⟨deploy, []⟩) m = m
  | [], _, _ => rfl
  | deploy :: starts, m, h => by
      have hlife : Life.run os ⟨deploy, []⟩ m = m := by
        have hstart : (context "Starting up gateway" (startup os deploy)).run m = .ok () m :=
          context_ok_iff.mpr (startup_of_module h)
        rw [Life.run, hstart]
        rfl
      rw [List.map_cons, lives, List.foldl_cons, hlife]
      exact lives_idle starts h

end

/-- The second file cannot be written. -/
def Bench.readonly : Os := { Bench.os with fails := fun k => k == 1 }

/-- The machine has a port's network as before, and the process knows nothing of it. -/
structure Orphaned (port : UInt16) (machine : Machine) (w : World) : Prop where
  running : LeftAlone (portName NETNS_PREFIX port) machine.sys w.sys
  stored : port ∉ w.stored

/-- After a start, a diff that succeeds leaves stored, and proxied by nginx, the networks it sets and no
    others. Every network the machine had on another port keeps running untouched, but is neither
    stored nor proxied any more. -/
theorem diff_after_restart (os : Os) (deploy : Deployment) (machine : Machine)
    (diff : GatewayConfigPartial) (w : World) (hkeyed : diff.Keyed)
    (h : (FractalGateway.apply_partial os deploy diff).run (World.fresh machine) = .ok () w) :
    w.stored = GatewayConfig.apply_partial ∅ diff ∧ Served deploy w.stored w.sys ∧
      ∀ port : UInt16, diff[port]? = none → Orphaned port machine w := by
  have hempty : (∅ : GatewayConfig).Keyed := fun port network hget => by simp at hget
  have hstored : w.stored = GatewayConfig.apply_partial ∅ diff := by
    rw [apply_partial_stored h]
    rfl
  refine ⟨hstored, ?_, fun port hport => ⟨?_, ?_⟩⟩
  · obtain ⟨names, t₁, hprep, h⟩ := bind_ok_iff.mp h
    obtain ⟨_, t₂, hloop, h⟩ := bind_ok_iff.mp h
    obtain ⟨u, t₃, hget, hnginx⟩ := bind_ok_iff.mp h
    cases hget
    obtain ⟨hkept, table, htable, hsys⟩ := handNginx_ok hnginx
    refine ⟨table, ?_, ?_, ?_⟩
    · have hkeyed' : w.stored.Keyed := hstored ▸ hempty.apply_partial hkeyed
      rw [hkeyed'.rekeyed_eq, hkept]
      exact htable
    · rw [hsys]
    · rw [hsys]
  · -- no entry of the diff names the port, so no change is made to its namespace
    have htouch : ∀ s s', Touch deploy
        (fun n => ∃ q : UInt16, diff[q]? = some none ∧ n = portName NETNS_PREFIX q)
        (fun network => diff[network.listen_port]? = some (some network)) s s' →
        LeftAlone (portName NETNS_PREFIX port) s s' := by
      refine fun s s' ht => ht.leftAlone ?_ fun network hnetwork heq => ?_
      · rintro ⟨q, hq, heq⟩
        rw [← portName_injective _ heq, hport] at hq
        cases hq
      · rw [← portName_injective _ heq, hport] at hnetwork
        cases hnetwork
    have hall : Always (InWorld (LeftAlone (portName NETNS_PREFIX port)))
        (FractalGateway.apply_partial os deploy diff) :=
      apply_partial_always htouch (fun q hq => ⟨q, hq, rfl⟩) fun q network hq => by
        rwa [hkeyed q network hq]
    exact hall.of_ok h
  · rw [hstored, OrdMap.not_mem_iff_get, GatewayConfig.get_apply_partial, hport]
    simp

/-- The machine has a network on port 7 when the process starts, and the diff sets port 5000. -/
theorem diff_after_restart_orphans :
    ∃ w, (FractalGateway.apply_partial Bench.os Bench.deploy (Bench.diff 5000 (Bench.bare 5000))).run
        (World.fresh Bench.messy.machine) = .ok () w ∧
      "network-7" ∈ w.sys.netns ∧ Orphaned 7 Bench.messy.machine w := by
  have hok := ok_of_returned
    (x := (FractalGateway.apply_partial Bench.os Bench.deploy (Bench.diff 5000 (Bench.bare 5000))))
    (s := World.fresh Bench.messy.machine) (by decide +kernel)
  refine ⟨_, hok, by decide +kernel, ?_⟩
  refine (diff_after_restart Bench.os Bench.deploy Bench.messy.machine _ _ ?_ hok).2.2 7
    (by decide +kernel)
  intro port network hget
  obtain ⟨rfl, rfl⟩ := Bench.get_diff hget
  rfl

end FractalGateway
