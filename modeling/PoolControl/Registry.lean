import PoolControl.Pool.Basic

/-! # The registry of pools

A `Registry` holds the running pools by name. Registering a pool under a name that is taken puts it
in the place of the pool that was there; every pool gets a serial number, by which one that was
replaced can still be told from its successor. -/

namespace PoolControl

/-- A registered pool with its serial number. -/
structure Registered where
  serial : Nat
  pool : Pool
  deriving DecidableEq, Repr

/-- The registered pools, in the order in which their names were first registered. -/
structure Registry where
  entries : List Registered := []
  /-- The serial number of the next pool. -/
  next : Nat := 0
  deriving DecidableEq, Repr

namespace Registry

/-- The entry of a name. -/
def entry? (r : Registry) (name : String) : Option Registered :=
  r.entries.find? (·.pool.name == name)

/-- The pool of a name. -/
def get? (r : Registry) (name : String) : Option Pool := (r.entry? name).map (·.pool)

/-- The pool of a name, or the error that there is none. -/
def get (r : Registry) (name : String) : Except Error Pool :=
  match r.get? name with
  | some p => .ok p
  | none => .error (.notFound name)

/-- Whether the name is registered. -/
def contains (r : Registry) (name : String) : Bool := (r.get? name).isSome

/-- The number of registered names. -/
def size (r : Registry) : Nat := r.entries.length

/-- Registers a pool under its own name, and gives the entry that was replaced. -/
def register (r : Registry) (p : Pool) : Option Registered × Registry :=
  let new : Registered := { serial := r.next, pool := p }
  match r.entry? p.name with
  | some old =>
    (some old,
      { entries := r.entries.map fun e => if e.pool.name = p.name then new else e
        next := r.next + 1 })
  | none => (none, { entries := r.entries ++ [new], next := r.next + 1 })

/-- Puts the pool in the place of the registered pool of the same name. -/
def update (r : Registry) (p : Pool) : Registry :=
  { r with
    entries := r.entries.map fun e => if e.pool.name = p.name then { e with pool := p } else e }

/-- The registered names in the order of their characters. -/
def names (r : Registry) : List String :=
  (r.entries.map (·.pool.name)).mergeSort fun a b => !decide (b < a)

/-- The registered pools. -/
def pools (r : Registry) : List Pool := r.entries.map (·.pool)

/-! ### Looking up what was put in -/

/-- A pool that was put in place is found under its name, if the name was registered. -/
theorem get?_update_self (r : Registry) (p : Pool) (h : r.contains p.name = true) :
    (r.update p).get? p.name = some p := by
  obtain ⟨entries, next⟩ := r
  simp only [contains, get?, entry?, update, Option.isSome_map] at *
  induction entries with
  | nil => simp at h
  | cons e es ih =>
    by_cases he : e.pool.name = p.name
    · simp [he]
    · rw [List.find?_cons_of_neg (by simpa using he)] at h
      rw [List.map_cons, List.find?_cons_of_neg (by simp [he])]
      exact ih h

/-- A pool that is put in place leaves the pools of other names alone. -/
theorem get?_update_of_ne (r : Registry) (p : Pool) {name : String} (h : p.name ≠ name) :
    (r.update p).get? name = r.get? name := by
  obtain ⟨entries, next⟩ := r
  simp only [get?, entry?, update]
  induction entries with
  | nil => rfl
  | cons e es ih =>
    by_cases he : e.pool.name = p.name
    · have : e.pool.name ≠ name := he ▸ h
      simp_all
    · by_cases hn : e.pool.name = name <;> simp_all

end Registry
end PoolControl
