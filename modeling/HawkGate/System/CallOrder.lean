-- SUMMARY: The order in which an add and a del make their calls, and the stage that each answer leads to.
import HawkGate.System.Commands

/-!
# The order of the calls

Where an `hgctl add` or `hgctl del` stands is told by the answers that its calls
have got so far. Each stage makes one call, and the answer decides which stage
comes next. The commands follow this order; what they close at the end is left
out of it.
-/

namespace HawkGate

open CString

variable {ncpu : Nat}

/-- What an add writes to the maps once its target is known. -/
structure AddWrites where
  mac : HgMacKey
  ip : IpAddr
  client : HgClient
  rate : HgRateCfg

/-- The stages of an add and of a del, each with the call that comes next. -/
inductive CallStage where
  | addOpenMacIp (a : AddArgs) (m : HgMacKey)
  | addLookupMacIp (a : AddArgs) (m : HgMacKey)
  | addOpenIpMac (a : AddArgs) (ip : IpAddr)
  | addLookupIpMac (a : AddArgs) (ip : IpAddr)
  | addCloseBinding (a : AddArgs) (map : MapName) (target : Option (HgMacKey × IpAddr))
  | addClock (a : AddArgs) (m : HgMacKey) (ip : IpAddr)
  | addOpenClients (w : AddWrites)
  | addOpenCounters (w : AddWrites) (opened : Bool)
  | addOpenRates (w : AddWrites) (opened : Bool)
  | addClient (w : AddWrites)
  | addCalloc (w : AddWrites)
  | addCounter (w : AddWrites)
  | addRollback (w : AddWrites)
  | addRate (w : AddWrites)
  | delOpenIpMac (ip : IpAddr)
  | delLookupIpMac (ip : IpAddr)
  | delCloseIpMac (m : Option HgMacKey)
  | delOpenClients (m : HgMacKey)
  | delOpenCounters (m : HgMacKey) (opened : Bool)
  | delLookupClient (m : HgMacKey)
  | delOpenRates (m : HgMacKey) (id : UInt32)
  | delRate (m : HgMacKey) (id : UInt32)
  | delCloseRates (m : HgMacKey)
  | delClient (m : HgMacKey)
  | delOpenMacIp (m : HgMacKey)
  | delLookupMacIp (m : HgMacKey)
  | delCounter (ip : IpAddr)
  /-- Nothing is left to do but to close what is open. -/
  | done

/-- A call, and the stage that each answer leads to. -/
structure StageCall (ncpu : Nat) where
  {β : Type}
  op : Sys ncpu β
  next : β → CallStage

/-- The writes of an add that has read the clock. -/
def AddArgs.writes (a : AddArgs) (m : HgMacKey) (ip : IpAddr) (ts : Timespec) : AddWrites :=
  ⟨m, ip, addClientVal ts.toNs a.expire a.idle a.rateId, addRateVal a.dLimit a.uLimit⟩

def CallStage.call : CallStage → Option (StageCall ncpu)
  | .addOpenMacIp a m => some ⟨.objGet .hgMacIp, fun ok => if ok then .addLookupMacIp a m else .done⟩
  | .addLookupMacIp a m =>
    some ⟨.lookupMacIp m, fun r => .addCloseBinding a .hgMacIp (r.map fun ip => (m, ip))⟩
  | .addOpenIpMac a ip =>
    some ⟨.objGet .hgIpMac, fun ok => if ok then .addLookupIpMac a ip else .done⟩
  | .addLookupIpMac a ip =>
    some ⟨.lookupIpMac ip, fun r => .addCloseBinding a .hgIpMac (r.map fun m => (m, ip))⟩
  | .addCloseBinding a map target =>
    some ⟨.close map, fun _ => target.elim .done fun t => .addClock a t.1 t.2⟩
  | .addClock a m ip =>
    some ⟨.clockGettime .monotonic, fun ts => .addOpenClients (a.writes m ip ts)⟩
  | .addOpenClients w => some ⟨.objGet .hgClients, fun ok => .addOpenCounters w ok⟩
  | .addOpenCounters w opened =>
    some ⟨.objGet .hgCounters, fun ok => .addOpenRates w (opened && ok)⟩
  | .addOpenRates w opened =>
    some ⟨.objGet .hgRates, fun ok => if opened && ok then .addClient w else .done⟩
  | .addClient w => some ⟨.updateClient w.mac w.client, fun ok => if ok then .addCalloc w else .done⟩
  | .addCalloc w => some ⟨.calloc, fun ok => if ok then .addCounter w else .addRollback w⟩
  | .addCounter w =>
    some ⟨.updateCounter w.ip fun _ => HgCounter.zero, fun ok =>
      if ok then .addRate w else .addRollback w⟩
  | .addRollback w => some ⟨.deleteClient w.mac, fun _ => .done⟩
  | .addRate w => some ⟨.updateRate w.client.rateLimitId w.rate, fun _ => .done⟩
  | .delOpenIpMac ip => some ⟨.objGet .hgIpMac, fun ok => if ok then .delLookupIpMac ip else .done⟩
  | .delLookupIpMac ip => some ⟨.lookupIpMac ip, fun m => .delCloseIpMac m⟩
  | .delCloseIpMac m => some ⟨.close .hgIpMac, fun _ => m.elim .done fun m => .delOpenClients m⟩
  | .delOpenClients m => some ⟨.objGet .hgClients, fun ok => .delOpenCounters m ok⟩
  | .delOpenCounters m opened =>
    some ⟨.objGet .hgCounters, fun ok => if opened && ok then .delLookupClient m else .done⟩
  | .delLookupClient m =>
    some ⟨.lookupClient m, fun r => r.elim (.delClient m) fun val => .delOpenRates m val.rateLimitId⟩
  | .delOpenRates m id => some ⟨.objGet .hgRates, fun ok => if ok then .delRate m id else .delClient m⟩
  | .delRate m id => some ⟨.deleteRate id, fun _ => .delCloseRates m⟩
  | .delCloseRates m => some ⟨.close .hgRates, fun _ => .delClient m⟩
  | .delClient m => some ⟨.deleteClient m, fun _ => .delOpenMacIp m⟩
  | .delOpenMacIp m => some ⟨.objGet .hgMacIp, fun ok => if ok then .delLookupMacIp m else .done⟩
  | .delLookupMacIp m => some ⟨.lookupMacIp m, fun r => r.elim .done .delCounter⟩
  | .delCounter ip => some ⟨.deleteCounter ip, fun _ => .done⟩
  | .done => none

/-- The stage after the call has been answered. -/
def CallStage.next (stage : CallStage) (env : SysEnv) (s : HgMaps ncpu) : CallStage :=
  match (stage.call : Option (StageCall ncpu)) with
  | none => stage
  | some c => c.next (Sys.exec env s c.op).1

/-- The accepted write of the call. -/
def CallStage.write (stage : CallStage) (env : SysEnv) (s : HgMaps ncpu) :
    Option (MapWrite ncpu) :=
  (stage.call : Option (StageCall ncpu)).bind fun c => c.op.write env s

/-! ## Where a command begins -/

def AddArgs.stage (a : AddArgs) : CallStage :=
  match a.mac, a.ip with
  | some mac, some ip =>
    ((scanMacKey mac).bind fun m => (inetPton ip).map fun x => (m, x)).elim .done fun t =>
      .addClock a t.1 t.2
  | some mac, none => (scanMacKey mac).elim .done (.addOpenMacIp a)
  | none, some ip => (inetPton ip).elim .done (.addOpenIpMac a)
  | none, none => .done

def DelVars.stage (v : DelVars) : CallStage :=
  if v.mac ≠ [] then (scanMacKey v.mac).elim .done .delOpenClients
  else (inetPton v.ip).elim .done .delOpenIpMac

def Command.stage : Command → CallStage
  | .add opts => (parseAdd opts).elim .done AddArgs.stage
  | .del opts => (parseDel opts).elim .done DelVars.stage

/-! ## The commands follow the order -/

def Sys.IsClose {β : Type} : Sys ncpu β → Prop
  | .close _ => True
  | _ => False

/-- Whatever the answers, the program makes the calls of the stage and of those that follow it. -/
def CallStage.Followed (stage : CallStage) : Tool ncpu Status → Prop
  | .ret _ => stage = .done
  | .call op k =>
    (stage = .done ∧ op.IsClose ∧ ∀ b, CallStage.Followed .done (k b)) ∨
      ∃ next, stage.call = some ⟨op, next⟩ ∧ ∀ b, (next b).Followed (k b)

theorem followed_ret (st : Status) : CallStage.done.Followed (pure st : Tool ncpu Status) :=
  rfl

theorem followed_close {map : MapName} {p : Tool ncpu Status}
    (h : CallStage.done.Followed p) : CallStage.done.Followed (sys (.close map) >>= fun _ => p) :=
  .inl ⟨rfl, trivial, fun _ => h⟩

theorem followed_closeIf {opened : Bool} {map : MapName} {p : Tool ncpu Status}
    (h : CallStage.done.Followed p) :
    CallStage.done.Followed (closeIf opened map >>= fun _ => p) := by
  cases opened with
  | false => exact h
  | true => exact followed_close h

theorem followed_call {stage : CallStage} {β : Type} {op : Sys ncpu β}
    {next : β → CallStage} {p : β → Tool ncpu Status} (hcall : stage.call = some ⟨op, next⟩)
    (h : ∀ b, (next b).Followed (p b)) : stage.Followed (sys op >>= p) :=
  .inr ⟨next, hcall, h⟩

section
variable (w : AddWrites)

/-- What is left of an add behind its writes. -/
def addClose (st : Status) : Tool ncpu Status := do
  sys (.close .hgClients)
  sys (.close .hgCounters)
  sys (.close .hgRates)
  pure st

theorem followed_addClose (st : Status) : CallStage.done.Followed (addClose st : Tool ncpu Status) :=
  followed_close (followed_close (followed_close (followed_ret st)))

theorem followed_addRollback :
    (CallStage.addRollback w).Followed (sys (.deleteClient w.mac) >>= fun _ =>
      (addClose .failed : Tool ncpu Status)) :=
  followed_call rfl fun _ => followed_addClose .failed

theorem followed_addWrite :
    (CallStage.addClient w).Followed
      (addWrite w.mac w.ip w.client w.rate >>= (addClose : Status → Tool ncpu Status)) := by
  refine followed_call rfl fun stored => ?_
  cases stored with
  | false => exact followed_addClose .failed
  | true =>
    refine followed_call rfl fun mem => ?_
    cases mem with
    | false => exact followed_addRollback w
    | true =>
      refine followed_call rfl fun counted => ?_
      cases counted with
      | false => exact followed_addRollback w
      | true => exact followed_call rfl fun _ => followed_addClose .success

theorem followed_addInstall :
    (CallStage.addOpenClients w).Followed
      (addInstall w.mac w.ip w.client w.rate : Tool ncpu Status) := by
  refine followed_call rfl fun clientFd => followed_call rfl fun counterFd =>
    followed_call rfl fun rateFd => ?_
  cases clientFd && counterFd && rateFd with
  | true => exact followed_addWrite w
  | false => exact followed_closeIf (followed_closeIf (followed_closeIf (followed_ret _)))

end

/-- What is left of an add behind the search for its target. -/
def addAt (a : AddArgs) : Option (HgMacKey × IpAddr) → Tool ncpu Status
  | none => pure .failed
  | some (m, ip) => do
    let ts ← sys (.clockGettime .monotonic)
    addInstall m ip (addClientVal ts.toNs a.expire a.idle a.rateId) (addRateVal a.dLimit a.uLimit)

theorem followed_addAt (a : AddArgs) (target : Option (HgMacKey × IpAddr)) :
    (target.elim CallStage.done fun t => .addClock a t.1 t.2).Followed
      (addAt a target : Tool ncpu Status) := by
  cases target with
  | none => exact followed_ret _
  | some t => exact followed_call rfl fun ts => followed_addInstall (a.writes t.1 t.2 ts)

theorem followed_addAction (a : AddArgs) : a.stage.Followed (addAction a : Tool ncpu Status) := by
  have haction : (addAction a : Tool ncpu Status) = addTarget a.mac a.ip >>= addAt a := rfl
  rw [haction]
  unfold AddArgs.stage addTarget
  cases a.mac with
  | some mac =>
    cases a.ip with
    | some ip => exact followed_addAt a _
    | none =>
      dsimp only
      cases scanMacKey mac with
      | none => exact followed_ret _
      | some m =>
        refine followed_call rfl fun ok => ?_
        cases ok with
        | false => exact followed_ret _
        | true => exact followed_call rfl fun r => followed_call rfl fun _ => followed_addAt a _
  | none =>
    cases a.ip with
    | some ip =>
      dsimp only
      cases inetPton ip with
      | none => exact followed_ret _
      | some x =>
        refine followed_call rfl fun ok => ?_
        cases ok with
        | false => exact followed_ret _
        | true => exact followed_call rfl fun r => followed_call rfl fun _ => followed_addAt a _
    | none => exact followed_ret _

/-- What is left of a del behind its deletions. -/
def delClose : Tool ncpu Status := do
  sys (.close .hgClients)
  sys (.close .hgCounters)
  pure .success

theorem followed_delClose : CallStage.done.Followed (delClose : Tool ncpu Status) :=
  followed_close (followed_close (followed_ret .success))

theorem followed_delCounter (m : HgMacKey) :
    (CallStage.delOpenMacIp m).Followed (delCounter m >>= fun _ => (delClose : Tool ncpu Status)) := by
  refine followed_call rfl fun ok => ?_
  cases ok with
  | false => exact followed_delClose
  | true =>
    refine followed_call rfl fun r => ?_
    cases r with
    | none => exact followed_close followed_delClose
    | some ip => exact followed_call rfl fun _ => followed_close followed_delClose

theorem followed_delClient (m : HgMacKey) :
    (CallStage.delClient m).Followed (sys (.deleteClient m) >>= fun _ => delCounter m >>= fun _ =>
      (delClose : Tool ncpu Status)) :=
  followed_call rfl fun _ => followed_delCounter m

theorem followed_delEntries (m : HgMacKey) :
    (CallStage.delLookupClient m).Followed
      (delEntries m >>= fun _ => (delClose : Tool ncpu Status)) := by
  refine followed_call rfl fun r => ?_
  cases r with
  | none => exact followed_delClient m
  | some val =>
    refine followed_call rfl fun ok => ?_
    cases ok with
    | false => exact followed_delClient m
    | true => exact followed_call rfl fun _ => followed_call rfl fun _ => followed_delClient m

theorem followed_delAction {mac : CString} {m : HgMacKey} (hm : scanMacKey mac = some m) :
    (CallStage.delOpenClients m).Followed (delAction mac : Tool ncpu Status) := by
  unfold delAction
  rw [hm]
  refine followed_call rfl fun clientFd => followed_call rfl fun counterFd => ?_
  cases clientFd && counterFd with
  | true => exact followed_delEntries m
  | false => exact followed_closeIf (followed_closeIf (followed_ret _))

/-- Every command follows the order of the calls from its own beginning. -/
theorem followed_tool (c : Command) : c.stage.Followed (c.tool : Tool ncpu Status) := by
  cases c with
  | add opts =>
    unfold Command.stage Command.tool hgctlAdd
    dsimp only
    cases parseAdd opts with
    | none => exact followed_ret _
    | some a => exact followed_addAction a
  | del opts =>
    unfold Command.stage Command.tool hgctlDel
    dsimp only
    cases parseDel opts with
    | none => exact followed_ret _
    | some v =>
      dsimp only [Option.elim_some, DelVars.stage]
      split
      · cases hm : scanMacKey v.mac with
        | none =>
          unfold delAction
          rw [hm]
          exact followed_ret _
        | some m => exact followed_delAction hm
      · unfold resolveIpToMac
        cases inetPton v.ip with
        | none => exact followed_ret _
        | some ip =>
          refine followed_call rfl fun ok => ?_
          cases ok with
          | false => exact followed_ret _
          | true =>
            refine followed_call rfl fun r => followed_call rfl fun _ => ?_
            cases r with
            | none => exact followed_ret _
            | some m =>
              -- the MAC is printed and read again
              have hbuf : strncpyInto 18 (macToStr m) = macToStr m :=
                List.take_of_length_le (by rw [macToStr, length_macText])
              exact followed_delAction (by rw [hbuf, scanMacKey_macToStr])

/-! ## One call -/

section
variable {stage : CallStage} {p : Tool ncpu Status}

/-- The command makes the write of its stage. -/
theorem CallStage.Followed.write (h : stage.Followed p) (env : SysEnv) (s : HgMaps ncpu)
    (c : Command) : (Process.mk c p).write env s = stage.write env s := by
  cases p with
  | ret a =>
    rw [show stage = .done from h]
    rfl
  | call op k =>
    rcases h with ⟨rfl, hclose, -⟩ | ⟨next, hcall, -⟩
    · cases op with
      | close map => rfl
      | _ => exact hclose.elim
    · rw [CallStage.write, hcall]
      rfl

/-- After a call the command follows the order from the next stage. -/
theorem CallStage.Followed.advance (h : stage.Followed p) (env : SysEnv) (s : HgMaps ncpu) :
    (stage.next env s).Followed (p.advance (Sys.exec env) s).1 := by
  cases p with
  | ret a =>
    rw [show stage = .done from h]
    exact rfl
  | call op k =>
    rcases h with ⟨rfl, -, hk⟩ | ⟨next, hcall, hk⟩
    · exact hk _
    · rw [CallStage.next, hcall]
      exact hk _

end

end HawkGate
