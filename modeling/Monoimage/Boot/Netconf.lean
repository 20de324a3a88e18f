import Monoimage.Boot.Start
import Monoimage.Clib.Exec

/-! `do_netconf` runs five `ip` commands for each network section. What they do is a matter of
`ip` and the kernel; of their state only the addresses of the interfaces, whether these are up,
and the default route are looked at. -/
namespace Monoimage.Boot

open Clib

def ipBinary : Text := "/bin/ip".toList

def eth0 : Text := "eth0".toList

/-- The argument list that `do_exec` makes of its variadic arguments. -/
def execArgv (args : List (Option Text)) : List Text :=
  doExecArgv (uptoNull args)

def flushArgs (dev : Text) : List (Option Text) :=
  [some "ip".toList, some "address".toList, some "flush".toList, some "dev".toList, some dev]

def addressArgs (address : Option Text) (dev : Text) : List (Option Text) :=
  [some "ip".toList, some "address".toList, some "add".toList, address, some "dev".toList,
    some dev]

def linkUpArgs (dev : Text) : List (Option Text) :=
  [some "ip".toList, some "link".toList, some "set".toList, some dev, some "up".toList]

def routeDelArgs : List (Option Text) :=
  [some "ip".toList, some "route".toList, some "del".toList, some "default".toList]

def routeAddArgs (gateway : Option Text) : List (Option Text) :=
  [some "ip".toList, some "route".toList, some "add".toList, some "default".toList,
    some "via".toList, gateway]

/-- The interface that is brought up is not that of the section. -/
def netconfArgs (network : NetworkSec) : List (List (Option Text)) :=
  [flushArgs network.title, addressArgs network.address network.title, linkUpArgs eth0,
    routeDelArgs, routeAddArgs network.gateway]

section Netconf

variable {σ : Type} (run : Text → List Text → σ → σ × Bool)

/-- `do_exec` is 0 for a child that exits zero, and 1 otherwise. -/
def addStatus (ret : Int32) (success : Bool) : Int32 :=
  ret + if success then 0 else 1

def runIp (args : List (Option Text)) (s : σ) : σ × Bool :=
  run ipBinary (execArgv args) s

/-- `ret += do_exec(...)` -/
def execIp (acc : σ × Int32) (args : List (Option Text)) : σ × Int32 :=
  ((runIp run args acc.1).1, addStatus acc.2 (runIp run args acc.1).2)

/-- The first `ret` is what the uninitialised variable happens to hold. -/
def doNetconf (cfg : Config) (ret : Int32) (s : σ) : σ × Int32 :=
  cfg.networks.foldl (fun acc network => (netconfArgs network).foldl (execIp run) acc) (s, ret)

/-- All commands of these sections, one after the other, succeed. -/
def NetconfSucceeds (networks : List NetworkSec) (s : σ) : Prop :=
  allSucceed (runIp run) (networks.flatMap netconfArgs) s = true

end Netconf

/-! ## What the commands do -/

/-- What is observed of the state of the network. -/
structure NetView (σ : Type) where
  addresses : σ → Text → List Text
  up : σ → Text → Bool
  gateway : σ → Option Text

/-- The effect of each command where it succeeds. Without an address or a gateway the list of
arguments ends early, and `ip` asks for the rest. -/
structure NetView.Documented {σ : Type} (view : NetView σ) (run : Text → List Text → σ → σ × Bool) :
    Prop where
  flush : ∀ dev s, (runIp run (flushArgs dev) s).2 = true →
    view.addresses (runIp run (flushArgs dev) s).1 =
        Function.update (view.addresses s) dev [] ∧
      view.up (runIp run (flushArgs dev) s).1 = view.up s
  add : ∀ address dev s, (runIp run (addressArgs (some address) dev) s).2 = true →
    view.addresses (runIp run (addressArgs (some address) dev) s).1 =
        Function.update (view.addresses s) dev (view.addresses s dev ++ [address]) ∧
      view.up (runIp run (addressArgs (some address) dev) s).1 = view.up s
  linkUp : ∀ dev s, (runIp run (linkUpArgs dev) s).2 = true →
    view.addresses (runIp run (linkUpArgs dev) s).1 = view.addresses s ∧
      view.up (runIp run (linkUpArgs dev) s).1 = Function.update (view.up s) dev true
  routeDel : ∀ s, (runIp run routeDelArgs s).2 = true →
    view.addresses (runIp run routeDelArgs s).1 = view.addresses s ∧
      view.up (runIp run routeDelArgs s).1 = view.up s
  routeAdd : ∀ gateway s, (runIp run (routeAddArgs (some gateway)) s).2 = true →
    view.addresses (runIp run (routeAddArgs (some gateway)) s).1 = view.addresses s ∧
      view.up (runIp run (routeAddArgs (some gateway)) s).1 = view.up s ∧
      view.gateway (runIp run (routeAddArgs (some gateway)) s).1 = some gateway
  addNothing : ∀ dev s, (runIp run (addressArgs none dev) s).2 = false
  viaNothing : ∀ s, (runIp run (routeAddArgs none) s).2 = false

/-! ## One section, and a run -/

section Run

variable {σ : Type} {view : NetView σ} {run : Text → List Text → σ → σ × Bool} {s s' : σ}

/-- What the commands of a section do where they succeed. -/
structure AfterSection (view : NetView σ) (network : NetworkSec) (s s' : σ) : Prop where
  complete : network.address.isSome = true ∧ network.gateway.isSome = true
  addresses : view.addresses s' =
    Function.update (view.addresses s) network.title network.address.toList
  up : view.up s' = Function.update (view.up s) eth0 true
  gateway : view.gateway s' = network.gateway

theorem afterSection {network : NetworkSec} (hdoc : view.Documented run)
    (h : allSucceed (runIp run) (netconfArgs network) s = true) :
    AfterSection view network s (runEach (runIp run) (netconfArgs network) s) := by
  obtain ⟨title, address, gateway⟩ := network
  simp only [netconfArgs, allSucceed, Bool.and_eq_true, and_true] at h
  obtain ⟨hflush, hadd, hlink, hdel, hroute⟩ := h
  cases address with
  | none =>
    rw [hdoc.addNothing] at hadd
    cases hadd
  | some address =>
    cases gateway with
    | none =>
      rw [hdoc.viaNothing] at hroute
      cases hroute
    | some gateway =>
      obtain ⟨hflushA, hflushU⟩ := hdoc.flush _ _ hflush
      obtain ⟨haddA, haddU⟩ := hdoc.add _ _ _ hadd
      obtain ⟨hlinkA, hlinkU⟩ := hdoc.linkUp _ _ hlink
      obtain ⟨hdelA, hdelU⟩ := hdoc.routeDel _ hdel
      obtain ⟨hrouteA, hrouteU, hrouteG⟩ := hdoc.routeAdd _ _ hroute
      refine ⟨⟨rfl, rfl⟩, ?_, ?_, hrouteG⟩
      · change view.addresses (runIp run (routeAddArgs (some gateway)) _).1 = _
        rw [hrouteA, hdelA, hlinkA, haddA, hflushA, Function.update_idem, Function.update_self]
        rfl
      · change view.up (runIp run (routeAddArgs (some gateway)) _).1 = _
        rw [hrouteU, hdelU, hlinkU, haddU, hflushU]

/-- What the commands of all sections have done. Each brings up the same interface. -/
structure AfterRun (view : NetView σ) (networks : List NetworkSec) (s s' : σ) : Prop where
  complete : ∀ network ∈ networks,
    network.address.isSome = true ∧ network.gateway.isSome = true
  listed : ∀ network ∈ networks, view.addresses s' network.title = network.address.toList
  unlisted : ∀ dev ∉ networks.map NetworkSec.title, view.addresses s' dev = view.addresses s dev
  up : view.up s' = if networks = [] then view.up s else Function.update (view.up s) eth0 true
  gateway : view.gateway s' =
    (networks.getLast?.map NetworkSec.gateway).getD (view.gateway s)

theorem afterRun {networks : List NetworkSec} (hdoc : view.Documented run)
    (hnodup : (networks.map NetworkSec.title).Nodup) (h : NetconfSucceeds run networks s) :
    AfterRun view networks s
      (runEach (runIp run) (networks.flatMap netconfArgs) s) := by
  induction networks generalizing s with
  | nil => exact ⟨by simp, by simp, fun _ _ => rfl, rfl, rfl⟩
  | cons network rest ih =>
    rw [NetconfSucceeds, List.flatMap_cons, allSucceed_append] at h
    rw [List.map_cons, List.nodup_cons] at hnodup
    rw [List.flatMap_cons, runEach_append]
    have hsection := afterSection hdoc h.1
    have hrest := ih hnodup.2 h.2
    refine ⟨?_, ?_, ?_, ?_, ?_⟩
    · exact List.forall_mem_cons.mpr ⟨hsection.complete, hrest.complete⟩
    · refine List.forall_mem_cons.mpr ⟨?_, hrest.listed⟩
      rw [hrest.unlisted _ hnodup.1, hsection.addresses, Function.update_self]
    · intro dev hdev
      rw [List.map_cons, List.mem_cons, not_or] at hdev
      rw [hrest.unlisted _ hdev.2, hsection.addresses, Function.update_of_ne hdev.1]
    · rw [hrest.up, hsection.up, if_neg (List.cons_ne_nil _ _)]
      split
      · rfl
      · rw [Function.update_idem]
    · rw [hrest.gateway, hsection.gateway, List.getLast?_cons]
      cases rest.getLast? <;> rfl

/-! ## What the configuration asks for -/

/-- Every section's interface is up with the section's address alone, all others are as they
were, the default route is that of the last section, and the result is 0. -/
structure Configured (view : NetView σ) (cfg : Config) (s : σ) (result : σ × Int32) : Prop where
  listed : ∀ network ∈ cfg.networks, view.up result.1 network.title = true ∧
    ∃ address, network.address = some address ∧
      view.addresses result.1 network.title = [address]
  unlisted : ∀ dev ∉ cfg.networks.map NetworkSec.title,
    view.up result.1 dev = view.up s dev ∧ view.addresses result.1 dev = view.addresses s dev
  gateway : ∀ network, cfg.networks.getLast? = some network →
    ∃ gateway, network.gateway = some gateway ∧ view.gateway result.1 = some gateway
  ret : result.2 = 0

theorem doNetconf_of_succeeds {cfg : Config} {ret : Int32}
    (h : NetconfSucceeds run cfg.networks s) :
    doNetconf run cfg ret s =
      (runEach (runIp run) (cfg.networks.flatMap netconfArgs) s, ret) := by
  have hadd : ∀ ret, addStatus ret true = ret := fun ret => Int32.add_zero ret
  rw [doNetconf, ← List.foldl_flatMap]
  exact foldl_of_allSucceed h hadd

variable {cfg : Config} {ret : Int32}

/-- The interfaces are brought up exactly if all but `eth0` were up. -/
theorem up_listed_iff (h : AfterRun view cfg.networks s s') :
    (∀ network ∈ cfg.networks, view.up s' network.title = true) ↔
      ∀ network ∈ cfg.networks, network.title ≠ eth0 → view.up s network.title = true := by
  refine forall₂_congr fun network hnetwork => ?_
  rw [h.up, if_neg (List.ne_nil_of_mem hnetwork)]
  by_cases hdev : network.title = eth0
  · simp [hdev]
  · simp [hdev]

/-- No other interface is brought up exactly if `eth0` is one of them, or was up. -/
theorem up_unlisted_iff (h : AfterRun view cfg.networks s s') :
    (∀ dev ∉ cfg.networks.map NetworkSec.title, view.up s' dev = view.up s dev) ↔
      cfg.networks = [] ∨ eth0 ∈ cfg.networks.map NetworkSec.title ∨ view.up s eth0 = true := by
  rw [h.up]
  split
  · simp [*]
  · rename_i hne
    simp only [hne, false_or]
    constructor
    · intro hsame
      by_cases hmem : eth0 ∈ cfg.networks.map NetworkSec.title
      · exact Or.inl hmem
      · have heth0 := hsame eth0 hmem
        rw [Function.update_self] at heth0
        exact Or.inr heth0.symm
    · rintro (hmem | hup) dev hdev
      · rw [Function.update_of_ne (ne_of_mem_of_not_mem hmem hdev).symm]
      · by_cases heq : dev = eth0
        · rw [heq, Function.update_self, hup]
        · rw [Function.update_of_ne heq]

/-- The code does that exactly if `ret` happens to hold 0, every interface of a section other
than `eth0` was up before, and `eth0` is the interface of a section or was up. -/
theorem configured_iff (hdoc : view.Documented run)
    (hnodup : (cfg.networks.map NetworkSec.title).Nodup)
    (hall : NetconfSucceeds run cfg.networks s) :
    Configured view cfg s (doNetconf run cfg ret s) ↔
      ret = 0 ∧
        (∀ network ∈ cfg.networks, network.title ≠ eth0 → view.up s network.title = true) ∧
        (cfg.networks = [] ∨ eth0 ∈ cfg.networks.map NetworkSec.title ∨
          view.up s eth0 = true) := by
  have hrun := afterRun hdoc hnodup hall
  rw [doNetconf_of_succeeds hall, ← up_listed_iff hrun, ← up_unlisted_iff hrun]
  constructor
  · intro h
    exact ⟨h.ret, fun network hnetwork => (h.listed network hnetwork).1,
      fun dev hdev => (h.unlisted dev hdev).1⟩
  · rintro ⟨hret, hlisted, hunlisted⟩
    refine ⟨?_, ?_, ?_, hret⟩
    · intro network hnetwork
      obtain ⟨address, haddress⟩ := Option.isSome_iff_exists.mp (hrun.complete _ hnetwork).1
      refine ⟨hlisted network hnetwork, address, haddress, ?_⟩
      rw [hrun.listed network hnetwork, haddress]
      rfl
    · exact fun dev hdev => ⟨hunlisted dev hdev, hrun.unlisted dev hdev⟩
    · intro network hlast
      have hmem := List.mem_of_getLast? hlast
      obtain ⟨gateway, hgateway⟩ := Option.isSome_iff_exists.mp (hrun.complete _ hmem).2
      refine ⟨gateway, hgateway, ?_⟩
      rw [hrun.gateway, hlast, ← hgateway]
      rfl

end Run

/-! ## A small `ip` -/

structure IpState where
  addresses : Text → List Text
  up : Text → Bool
  gateway : Option Text

def ipView : NetView IpState := ⟨IpState.addresses, IpState.up, IpState.gateway⟩

/-- A default route is deleted only where there is one, and added only where there is none. -/
def smallIp (_ : Text) (argv : List Text) (s : IpState) : IpState × Bool :=
  match argv with
  | [_, _, _, _] => ({ s with gateway := none }, s.gateway.isSome)
  | [_, object, _, dev, last] =>
    if object = "link".toList then ({ s with up := Function.update s.up dev true }, true)
    else if object = "address".toList then
      ({ s with addresses := Function.update s.addresses last [] }, true)
    else (s, false)
  | [_, object, _, address, _, last] =>
    if object = "address".toList then
      ({ s with addresses := Function.update s.addresses last (s.addresses last ++ [address]) },
        true)
    else ({ s with gateway := some last }, s.gateway.isNone)
  | _ => (s, false)

theorem smallIp_documented : ipView.Documented smallIp where
  flush _ _ _ := ⟨rfl, rfl⟩
  add _ _ _ _ := ⟨rfl, rfl⟩
  linkUp _ _ _ := ⟨rfl, rfl⟩
  routeDel _ _ := ⟨rfl, rfl⟩
  routeAdd _ _ _ := ⟨rfl, rfl, rfl⟩
  addNothing _ _ := rfl
  viaNothing _ := rfl

def eth1 : Text := "eth1".toList

def twoNetworks : Config :=
  { exampleConf with networks :=
      [⟨eth0, some "10.0.0.2/24".toList, some "10.0.0.1".toList⟩,
        ⟨eth1, some "192.168.7.2/24".toList, some "192.168.7.1".toList⟩] }

/-- The interfaces in the list are up, with an old address each. -/
def oldState (devs : List Text) : IpState :=
  ⟨fun _ => ["172.16.0.9/16".toList], fun dev => devs.contains dev, some "172.16.0.1".toList⟩

theorem configured_twoNetworks :
    NetconfSucceeds smallIp twoNetworks.networks (oldState [eth1]) ∧
      Configured ipView twoNetworks (oldState [eth1])
        (doNetconf smallIp twoNetworks 0 (oldState [eth1])) := by
  have hall : NetconfSucceeds smallIp twoNetworks.networks (oldState [eth1]) := by
    unfold NetconfSucceeds
    decide +kernel
  refine ⟨hall, (configured_iff smallIp_documented (by decide) hall).mpr ⟨rfl, ?_, ?_⟩⟩
  · decide +kernel
  · exact Or.inr (Or.inl (by decide))

/-- The second interface stays down, and without a section nothing sets the result. -/
theorem not_configured_twoNetworks :
    (NetconfSucceeds smallIp twoNetworks.networks (oldState []) ∧
      ¬ Configured ipView twoNetworks (oldState [])
        (doNetconf smallIp twoNetworks 0 (oldState []))) ∧
    (NetconfSucceeds smallIp [] (oldState []) ∧
      ¬ Configured ipView { twoNetworks with networks := [] } (oldState [])
        (doNetconf smallIp { twoNetworks with networks := [] } 1 (oldState []))) := by
  have hall : NetconfSucceeds smallIp twoNetworks.networks (oldState []) := by
    unfold NetconfSucceeds
    decide +kernel
  refine ⟨⟨hall, fun h => ?_⟩, rfl, fun h => ?_⟩
  · have hup := (h.listed ⟨eth1, some "192.168.7.2/24".toList, some "192.168.7.1".toList⟩
      (by decide +kernel)).1
    revert hup
    decide +kernel
  · have hret := h.ret
    revert hret
    decide +kernel

end Monoimage.Boot
