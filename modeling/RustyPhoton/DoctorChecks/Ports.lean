import Mathlib.Data.Prod.Lex
import Mathlib.Data.String.Basic

/-!
# The order of ports

Two ports are compared hop by hop from the root: the runs of letters and digits between the separators by
width without their leading zeros, then as text. Equal runs fall back to the whole string.
-/

namespace RustyPhoton.DoctorChecks

/-- A run's sort key: its width, then its text, with its leading zeros dropped. -/
def runKey (run : List Char) : ℕ ×ₗ String :=
  let run := run.dropWhile fun c => c = '0'
  toLex (run.length, String.ofList run)

/-- The keys of a port's runs. -/
def portKeys (port : String) : List (ℕ ×ₗ String) :=
  ((port.toList.splitOnP fun c => !c.isAlphanum).filter fun run => !run.isEmpty).map runKey

/-- Compare two ports hop by hop from the root. -/
def comparePorts (a b : String) : Ordering :=
  (compare (portKeys a) (portKeys b)).then (compare a b)

/-- Whether a port comes no later than another. -/
abbrev PortLe (a b : String) : Prop := (comparePorts a b).isLE = true

example : comparePorts "pci-0000:00:14.0-usbv3-0:4.2" "pci-0000:00:14.0-usbv3-0:4.10" = .lt := by
  decide +kernel

/-! ## A total order -/

instance : Std.TransCmp comparePorts :=
  inferInstanceAs (Std.TransCmp (compareLex (compareOn portKeys) compare))

theorem comparePorts_eq_iff {a b : String} : comparePorts a b = .eq ↔ a = b := by
  constructor
  · intro h
    exact Std.LawfulEqCmp.eq_of_compare (Ordering.then_eq_eq.mp h).2
  · intro h
    rw [h]
    exact Std.ReflCmp.compare_self

theorem PortLe.antisymm {a b : String} (h : PortLe a b) (h' : PortLe b a) : a = b :=
  comparePorts_eq_iff.mp (Std.OrientedCmp.isLE_antisymm h h')

theorem portLe_total (a b : String) : PortLe a b ∨ PortLe b a := by
  have hswap : comparePorts b a = (comparePorts a b).swap := Std.OrientedCmp.eq_swap
  show (comparePorts a b).isLE = true ∨ (comparePorts b a).isLE = true
  rw [hswap]
  cases comparePorts a b with
  | lt => exact .inl rfl
  | eq => exact .inl rfl
  | gt => exact .inr rfl

instance : IsTrans String PortLe := ⟨fun _ _ _ => Std.TransCmp.isLE_trans⟩

instance : Std.Total PortLe := ⟨portLe_total⟩

end RustyPhoton.DoctorChecks
