import PoolControl.ControlPlane
import PoolControl.Refresh.Apply

/-! # Binding pools to the initial configuration

`bind` applies the records of a batch to the pools that are registered when the program starts,
without notifying anyone. After that every registered pool has rules with thresholds, intervals and
platforms filled in, and a fresh gauge for each of them. -/

namespace PoolControl

open Settings (Batch NotifyRule Platform Record)

/-- What became of one record. -/
inductive Binding where
  | notRegistered (name : String)
  | invalid (name : String) (error : Error)
  | applied (name : String) (events : List TuningEvent)
  deriving DecidableEq, Repr

/-- Whether the record was applied. -/
def Binding.isApplied : Binding → Bool
  | applied .. => true
  | _ => false

/-- Applies one record. A fault is given beside what was done. -/
def bindRecord (platforms : List Platform) (c : ControlPlane) (r : Record) :
    (Binding × Option Fault) × ControlPlane :=
  match c.registry.get? r.name with
  | none => ((.notRegistered r.name, none), c)
  | some p =>
    match Pool.checkRecord r with
    | .error e => ((.invalid r.name e, none), c)
    | .ok _ =>
      let applied := applyRecord platforms c.throttle c.nowNanos r p
      ((.applied r.name applied.events, applied.fault),
        { c.updatePool applied.pool with throttle := applied.throttle })

/-- Applies the records one after the other. A fault ends it. -/
def bindRecords (platforms : List Platform) (c : ControlPlane) :
    List Record → (List Binding × Option Fault) × ControlPlane
  | [] => (([], none), c)
  | r :: rs =>
    match bindRecord platforms c r with
    | ((binding, some fault), c) => (([binding], some fault), c)
    | ((binding, none), c) =>
      let ((rest, fault), c) := bindRecords platforms c rs
      ((binding :: rest, fault), c)

/-- Fills in the rules of a pool and gives each a fresh gauge. -/
def normalizeRules (platforms : List Platform) (c : ControlPlane) (p : Pool) :
    Option Fault × ControlPlane :=
  let rules := NotifyRule.effective platforms p.rules
  let (fault, throttle) := c.throttle.resetAll c.nowNanos p.name rules
  let c := { c with throttle }
  (fault, if fault.isNone then c.updatePool (p.setRules rules) else c)

/-- Fills in the rules of the pools one after the other. A fault ends it. -/
def normalizeAll (platforms : List Platform) (c : ControlPlane) :
    List Pool → Option Fault × ControlPlane
  | [] => (none, c)
  | p :: ps =>
    match normalizeRules platforms c p with
    | (some fault, c) => (some fault, c)
    | (none, c) => normalizeAll platforms c ps

/-- Applies a batch to the registered pools and fills in the rules of all of them. -/
def bind (c : ControlPlane) (b : Batch) : (List Binding × Option Fault) × ControlPlane :=
  match bindRecords b.platforms c b.records with
  | ((bindings, some fault), c) => ((bindings, some fault), c)
  | ((bindings, none), c) =>
    let (fault, c) := normalizeAll b.platforms c c.registry.pools
    ((bindings, fault), c)

end PoolControl
