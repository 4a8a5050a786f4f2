import Cpe.Main.RouteCalls

/-! # The routes in the kernel

The routes of the model are those of the kernel: over a run whose calls are not
refused without reason, the kernel has on the device just the routes of the
server, and nothing else of it changes. -/
namespace Cpe.Proofs.KernelRoutes
open Cpe.Lib.ByteOrder Cpe.Lib.CString Cpe.Lib.Number Cpe.Lib.InetAddr Cpe.Lib.Run Cpe.Lib.Calls
open Cpe.Lib.Calls.Prog Cpe.Main Cpe.Uvpp.TunTap

/-! ## Routes of a device -/

section
variable (net : Net) (dev : Bytes) (routes routes' : Finset Route)

@[simp] theorem setRoutes_routes : (net.setRoutes dev routes).routes dev = routes := by
  simp [Net.setRoutes]

@[simp] theorem setRoutes_setRoutes :
    (net.setRoutes dev routes).setRoutes dev routes' = net.setRoutes dev routes' := by
  simp [Net.setRoutes]

theorem setRoutes_self : net.setRoutes dev (net.routes dev) = net := by
  simp [Net.setRoutes]

end

/-! ## One call -/

/-- A request that may only be refused when that makes no difference. -/
theorem routeRequest_obliging {os : Os} {request : Request} {net : Net}
    (served : ∀ answer net', Serves os.net request answer net' → net' = net)
    (refused : ∀ (fd : Nat) (opened : Finset Nat),
      Obliges { os with opened } (.ioctl fd request) { code := -1 } → os.net = net) :
    wp Obliging (routeRequest request) (fun _ os' => os' = { os with net }) os := by
  have hclose : ∀ {fd : Nat} (net' : Net), fd ∉ os.opened → net' = net → ∀ r os',
      Obliging ⟨insert fd os.opened, net'⟩ (.close fd) r os' → os' = { os with net } := by
    intro fd net' fresh hnet r os' h
    obtain ⟨hk, _⟩ := h
    cases hk with
    | close _ code =>
      have hback : (insert fd os.opened).erase fd = os.opened := Finset.erase_insert fresh
      simp only [hback, hnet]
    | notOpen hnot => exact absurd rfl (hnot fd (Finset.mem_insert_self fd os.opened))
    | refused hc => exact absurd rfl (hc fd)
  simp only [routeRequest, wp_bind', wp_ask]
  intro r s h
  obtain ⟨hk, hobliges⟩ := h
  cases hk with
  | refused => exact absurd (hobliges.socket rfl) (by decide)
  | socket fresh =>
    intro r s h
    obtain ⟨hk, hobliges⟩ := h
    cases hk with
    | ioctl _ hserved =>
      rw [hserved.code, if_neg (by decide), wp_bind', wp_ask]
      exact hclose _ fresh (served _ _ hserved)
    | refused =>
      rw [if_pos (by decide), wp_bind', wp_ask]
      exact hclose _ fresh (refused _ _ hobliges)

section
variable (os : Os) (dev target dstMask : Bytes)

theorem routeAddNet_obliging :
    wp Obliging (Uvpp.TunTap.routeAddNet dev target dstMask) (fun _ os' => os' =
      { os with
        net := os.net.setRoutes dev (Main.routeAddNet target dstMask (os.net.routes dev)) })
      os := by
  refine routeRequest_obliging (fun answer net' served => ?_) fun fd opened hobliges => ?_
  · cases served with
    | SIOCADDRT hr => 
      have hroute : routeOf target dstMask = some _ := hr
      rw [Main.routeAddNet, routeNet, hroute]
  · cases hr : routeOf target dstMask with
    | none => rw [Main.routeAddNet, routeNet, hr, setRoutes_self]
    | some r =>
      have hpresent : r ∈ os.net.routes dev := by
        by_contra hnew
        exact absurd (hobliges.adds fd dev _ _ r rfl hr hnew) (by decide)
      rw [Main.routeAddNet, routeNet, hr]
      simp only
      rw [Finset.insert_eq_of_mem hpresent, setRoutes_self]

theorem routeDelNet_obliging :
    wp Obliging (Uvpp.TunTap.routeDelNet dev target dstMask) (fun _ os' => os' =
      { os with
        net := os.net.setRoutes dev (Main.routeDelNet target dstMask (os.net.routes dev)) })
      os := by
  refine routeRequest_obliging (fun answer net' served => ?_) fun fd opened hobliges => ?_
  · cases served with
    | SIOCDELRT hr => 
      have hroute : routeOf target dstMask = some _ := hr
      rw [Main.routeDelNet, routeNet, hroute]
  · cases hr : routeOf target dstMask with
    | none => rw [Main.routeDelNet, routeNet, hr, setRoutes_self]
    | some r =>
      have habsent : r ∉ os.net.routes dev := by
        intro hold
        exact absurd (hobliges.deletes fd dev _ _ r rfl hr hold) (by decide)
      rw [Main.routeDelNet, routeNet, hr]
      simp only
      rw [Finset.erase_eq_of_notMem habsent, setRoutes_self]

end

/-! ## The loops -/

/-- The kernel has the routes of the server, and is else as it was. -/
def Mirrors (os₀ : Os) (dev : Bytes) (os : Os) (s : Server) : Prop :=
  os = { os₀ with net := os₀.net.setRoutes dev s.routes }

section
variable {os₀ os : Os} {dev : Bytes} {s : Server}

theorem routeCalls_mirror {call : Bytes → Bytes → Bytes → Prog Sys Answer Int}
    {route : Bytes → Bytes → Finset Route → Finset Route}
    (hcall : ∀ os target dstMask, wp Obliging (call dev target dstMask) (fun _ os' => os' =
      { os with net := os.net.setRoutes dev (route target dstMask (os.net.routes dev)) }) os)
    (h : Mirrors os₀ dev os s) :
    wp Obliging (s.routeCalls call dev) (fun _ os' => Mirrors os₀ dev os' (s.routeForNodes route))
      os := by
  -- the loops change nothing of the server that they read
  let R := fun (os : Os) (t : Server) => Mirrors os₀ dev os t ∧ t.nodeId = s.nodeId
  have hstart : R os s := ⟨h, rfl⟩
  refine wp_mono (wp_each (R := R) (fun node os t ht => ?_) s.cpes hstart) fun _ _ h => h.1
  by_cases hlocal : atoi s.nodeId = node.nodeID
  · rw [if_pos hlocal, ht.2, if_pos hlocal]
    exact ht
  · rw [if_neg hlocal, ht.2, if_neg hlocal]
    refine wp_each (R := R) (fun net os t ht => ?_) (split node.nodeSubnet (str ",")) ht
    obtain ⟨hmirror, hid⟩ := ht
    cases netMeta net with
    | none => exact ⟨hmirror, hid⟩
    | some entry =>
      refine wp_bind.mpr (wp_mono (hcall os entry.1 _) fun _ os' hos' => ⟨?_, hid⟩)
      rw [hmirror] at hos'
      rw [hos', Mirrors]
      simp only [setRoutes_routes, setRoutes_setRoutes]

end

/-! ## Runs -/

section
variable (pf : Platform) {os₀ os : Os} {dev : Bytes} {s : Server}

theorem meshCalls_mirror (list : Pro.NodeInfoList) (m : MeshStep) (h : Mirrors os₀ dev os s) :
    wp Obliging (s.meshCalls dev m) (fun _ os' => Mirrors os₀ dev os' (s.meshStep pf list m))
      os := by
  cases m with
  | clearAndCopy =>
    have hroutes : (s.meshStep pf list .clearAndCopy).routes = s.routes := by
      rw [Server.meshStep, foldl_copyNodeInfo]
    show Mirrors os₀ dev os _
    rw [Mirrors, hroutes]
    exact h
  | initCpes =>
    have hroutes : (s.meshStep pf list .initCpes).routes = s.routes := by
      rw [Server.meshStep, initMeshCpes_eq]
    show Mirrors os₀ dev os _
    rw [Mirrors, hroutes]
    exact h
  | delRoutes => exact routeCalls_mirror (fun os => routeDelNet_obliging os dev) h
  | addRoutes => exact routeCalls_mirror (fun os => routeAddNet_obliging os dev) h

theorem eventCalls_mirror (e : Event) (h : Mirrors os₀ dev os s) :
    wp Obliging (s.eventCalls pf dev e) (fun _ os' => Mirrors os₀ dev os' (s.step pf e)) os := by
  cases e with
  | packet packet =>
    obtain ⟨m, hm⟩ := tunStep_cache s packet
    rw [Server.step, hm]
    exact h
  | session data len =>
    rw [step_session, Server.eventCalls]
    cases decodeSession pf data len with
    | mesh parsed list =>
      cases parsed with
      | false => exact h
      | true =>
        have hrun := wp_along (fun t m os ht => meshCalls_mirror pf list m ht) h meshSteps
        have hsteps : run (Server.meshStep pf list) s meshSteps = s.applyMesh pf list :=
          foldl_meshSteps pf s list
        rw [hsteps] at hrun
        exact hrun
    | _ => exact h

/-- **The kernel has the routes of the model.** After the calls of any run, none
of them refused without reason, the device has the routes the server is modelled
with, and no descriptor, no interface and no other route has changed. -/
theorem kernel_routes (s : Server) (es : List Event) {os os' : Os} {u : Unit}
    (hroutes : os.net.routes dev = s.routes)
    (h : Exec Obliging os (s.runCalls pf dev es) u os') :
    os' = { os with net := os.net.setRoutes dev (run (Server.step pf) s es).routes } := by
  have hstart : Mirrors os dev os s := by
    rw [Mirrors, ← hroutes, setRoutes_self]
  have hrun := wp_along (R := Mirrors os dev)
    (fun t e os ht => eventCalls_mirror pf e ht) hstart es
  exact wp_iff_exec.mp hrun u os' h

end

/-- A mesh list with one subnet, and its route. -/
def subnetList : Pro.NodeInfoList :=
  ⟨[{ nodeId := 2, virtualIp := str "10.0.0.2", subnetIpStart := str "10.2.0.0/16", netMask := 16 }]⟩

def subnetRoute : Route := ⟨0x0a020000, 0xffff0000, by decide⟩

/-- A process with the device and no routes, and the calls of the list. -/
def quiet : Os := ⟨{3}, ⟨fun _ => none, fun _ => ∅⟩⟩

theorem obliges_of_nonneg {os : Os} {c : Sys} {answer : Answer} (h : 0 ≤ answer.code) :
    Obliges os c answer := ⟨fun _ => h, fun _ _ _ _ _ _ _ _ => h, fun _ _ _ _ _ _ _ _ => h⟩

theorem subnet_exec :
    Exec Obliging quiet ((started ⟨Pro.wire, id⟩ 3 1 {} 9).runCalls ⟨Pro.wire, id⟩ (str "tap0")
      [.meshNotify subnetList]) ()
      { quiet with net := quiet.net.setRoutes (str "tap0") (insert subnetRoute ∅) } := by
  refine .call ⟨@KernelStep.socket _ 4 (by decide), obliges_of_nonneg (by decide)⟩ ?_
  have hroute : Route.of? (htonl (inetAddr (str "10.2.0.0")))
      (htonl (inetAddr (valueToIP (bitsetMask 16)))) = some subnetRoute := by decide +kernel
  refine .call ⟨@KernelStep.ioctl _ 4 (by decide) _ _ _ (.SIOCADDRT hroute (str "tap0")),
    obliges_of_nonneg (by decide)⟩ ?_
  refine .call ⟨@KernelStep.close _ 4 (by decide) 0, obliges_of_nonneg (by decide)⟩ ?_
  exact .ret _ _

theorem subnet_kernel_routes :
    ({ quiet with net := quiet.net.setRoutes (str "tap0") (insert subnetRoute ∅) } : Os) =
      { quiet with
        net := quiet.net.setRoutes (str "tap0") (run (Server.step ⟨Pro.wire, id⟩)
          (started ⟨Pro.wire, id⟩ 3 1 {} 9) [.meshNotify subnetList]).routes } :=
  kernel_routes ⟨Pro.wire, id⟩ (started ⟨Pro.wire, id⟩ 3 1 {} 9) [.meshNotify subnetList] rfl
    subnet_exec

/-! ## Any kernel -/

/-- Nothing but the routes of the device may be different. -/
def SameButRoutes (os₀ : Os) (dev : Bytes) (os : Os) : Prop :=
  ∃ routes, os = { os₀ with net := os₀.net.setRoutes dev routes }

section
variable {os₀ os : Os} {dev : Bytes}

theorem routeRequest_same {request : Request}
    (hrequest : ∀ net answer net', Serves net request answer net' →
      ∃ routes, net' = net.setRoutes dev routes) (h : SameButRoutes os₀ dev os) :
    wp KernelStep (routeRequest request) (fun _ os' => SameButRoutes os₀ dev os') os := by
  obtain ⟨routes, rfl⟩ := h
  refine wp_mono (routeRequest_spec _ request) fun code os' hcommits => ?_
  obtain ⟨opened, net⟩ := os'
  obtain ⟨rfl, ⟨-, answer, hserved⟩ | ⟨-, rfl⟩⟩ := hcommits
  · obtain ⟨routes', rfl⟩ := hrequest _ _ _ hserved
    rw [setRoutes_setRoutes]
    exact ⟨routes', rfl⟩
  · exact ⟨routes, rfl⟩

theorem routeAddNet_same (target dstMask : Bytes) (h : SameButRoutes os₀ dev os) :
    wp KernelStep (Uvpp.TunTap.routeAddNet dev target dstMask)
      (fun _ os' => SameButRoutes os₀ dev os') os := by
  refine routeRequest_same (fun net answer net' hserved => ?_) h
  cases hserved with
  | SIOCADDRT => exact ⟨_, rfl⟩

theorem routeDelNet_same (target dstMask : Bytes) (h : SameButRoutes os₀ dev os) :
    wp KernelStep (Uvpp.TunTap.routeDelNet dev target dstMask)
      (fun _ os' => SameButRoutes os₀ dev os') os := by
  refine routeRequest_same (fun net answer net' hserved => ?_) h
  cases hserved with
  | SIOCDELRT => exact ⟨_, rfl⟩

theorem routeCalls_same {call : Bytes → Bytes → Bytes → Prog Sys Answer Int}
    (hcall : ∀ os target dstMask, SameButRoutes os₀ dev os →
      wp KernelStep (call dev target dstMask) (fun _ os' => SameButRoutes os₀ dev os') os)
    (s : Server) (h : SameButRoutes os₀ dev os) :
    wp KernelStep (s.routeCalls call dev) (fun _ os' => SameButRoutes os₀ dev os') os := by
  let R := fun (os : Os) (_ : Unit) => SameButRoutes os₀ dev os
  refine wp_each (R := R) (g := fun t _ => t) (fun node os _ h => ?_) s.cpes (t := ()) h
  split
  · exact h
  · refine wp_each (R := R) (g := fun t _ => t) (fun net os _ h => ?_) _ (t := ()) h
    cases netMeta net with
    | none => exact h
    | some entry => exact wp_bind.mpr (wp_mono (hcall os entry.1 _ h) fun _ _ h => h)

theorem eventCalls_same (pf : Platform) (s : Server) (e : Event) (h : SameButRoutes os₀ dev os) :
    wp KernelStep (s.eventCalls pf dev e) (fun _ os' => SameButRoutes os₀ dev os') os := by
  cases e with
  | packet packet => exact h
  | session data len =>
    rw [Server.eventCalls]
    cases decodeSession pf data len with
    | mesh parsed list =>
      cases parsed with
      | false => exact h
      | true =>
        refine wp_along (R := fun os _ => SameButRoutes os₀ dev os) (fun t m os h => ?_) h meshSteps
        cases m with
        | clearAndCopy => exact h
        | initCpes => exact h
        | delRoutes => exact routeCalls_same (fun os t d => routeDelNet_same t d) t h
        | addRoutes => exact routeCalls_same (fun os t d => routeAddNet_same t d) t h
    | _ => exact h

/-- **Refused calls do no harm.** Whatever the kernel refuses in a run, no
descriptor is lost, and nothing but the routes on the device changes. -/
theorem run_same_but_routes (pf : Platform) (s : Server) (es : List Event) {os' : Os} {u : Unit}
    (h : Exec KernelStep os (s.runCalls pf dev es) u os') : SameButRoutes os dev os' := by
  have hstart : SameButRoutes os dev os := ⟨os.net.routes dev, by rw [setRoutes_self]⟩
  have hrun : wp KernelStep (s.runCalls pf dev es) (fun _ os' => SameButRoutes os dev os') os :=
    wp_along (R := fun os' _ => SameButRoutes os dev os')
      (fun t e os' h => eventCalls_same pf t e h) hstart es
  exact wp_iff_exec.mp hrun u os' h

end

/-- Without a socket the route of the list is not made. -/
theorem refused_exec :
    Exec KernelStep quiet ((started ⟨Pro.wire, id⟩ 3 1 {} 9).runCalls ⟨Pro.wire, id⟩ (str "tap0")
      [.meshNotify subnetList]) () quiet := by
  refine .call (.refused fun _ h => by cases h) ?_
  refine .call (.refused fun _ h => by cases h) ?_
  refine .call (@KernelStep.notOpen _ (-1) (by decide)) ?_
  exact .ret _ _

theorem refused_same : SameButRoutes quiet (str "tap0") quiet :=
  run_same_but_routes ⟨Pro.wire, id⟩ (started ⟨Pro.wire, id⟩ 3 1 {} 9) [.meshNotify subnetList]
    refused_exec

end Cpe.Proofs.KernelRoutes
