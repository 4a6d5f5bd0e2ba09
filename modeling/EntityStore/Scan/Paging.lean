import EntityStore.Page.Basic
import EntityStore.Scan.Basic

/-! # Pages from scans

A page takes up to its size of values from a scan.  It starts at the cursor that the scan
reports before, and the page behind it starts at the cursor that the scan reports after,
if values are left.  Without a request, everything that is left is taken. -/

namespace EntityStore

namespace Scan

variable {σ ρ ω τ : Type} {sel : Selection σ ρ ω τ}

/-- Hand out up to `n` values. -/
def take : Nat → Scan sel → List τ × Scan sel
  | 0, scan => ([], scan)
  | n + 1, scan =>
    match scan.next with
    | (none, scan) => ([], scan)
    | (some value, scan) =>
      let (values, scan) := take n scan
      (value :: values, scan)

/-- Hand out every value that is left. -/
def takeAll (scan : Scan sel) : List τ × Scan sel :=
  match _h : scan.next with
  | (none, scan) => ([], scan)
  | (some value, scan) =>
    let (values, scan) := takeAll scan
    (value :: values, scan)
termination_by scan
decreasing_by exact ⟨value, _h⟩

/-- Everything that is left, on no page. -/
def drain (scan : Scan sel) : Results τ × Scan sel :=
  let (values, scan) := scan.takeAll
  (⟨values, none⟩, scan)

/-- The page of a request. -/
def takePage (request : Page) (scan : Scan sel) : Results τ × Scan sel :=
  let (values, rest) := scan.take request.size.toNat
  let next := if rest.hasNext then some rest.cursor else none
  (⟨values, some (request.fill (some scan.cursor) next values.length)⟩, rest)

/-- The page of a request, or everything that is left without one. -/
def collect (request : Option Page) (scan : Scan sel) : Results τ × Scan sel :=
  match request with
  | none => scan.drain
  | some request => scan.takePage request

end Scan

end EntityStore
