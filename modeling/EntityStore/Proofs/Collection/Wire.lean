import EntityStore.Proofs.Collection.Walk
import EntityStore.Proofs.Page.Wire

/-! # Walks over the wire

A client may hold nothing but texts: it keeps the page that it was given as a text, and sends
its request as one.  Since a page survives the way through its bytes, such a client walks from
page to page as if it shared the memory of the server.

* `Collection.walkSent`     a walk with every request sent as bytes
* `Collection.walkSent_eq`  it returns what a walk returns
* `Collection.wire_exact`   pages, results and walks over the wire -/

namespace EntityStore

namespace Collection

variable {α : Type}

/-- Walk from page to page, with each request written by the client and read by the server.
    There is no answer if a request cannot be read. -/
def walkSent (c : Collection α) (pred : α → Bool) (request : Page) (w : World) :
    List (List Step) → Option (Except Error (List (Results α)))
  | [] => do
    let received ← Page.read? request.write
    return (c.find w.store (some received) pred).1.map fun results => [results]
  | burst :: bursts => do
    let received ← Page.read? request.write
    match c.find w.store (some received) pred with
    | (.error e, _) => return .error e
    | (.ok results, store) =>
      match results.page.bind Page.following? with
      | none => return .ok [results]
      | some next =>
        let pages ← c.walkSent pred next (World.run { w with store } burst) bursts
        return pages.map (results :: ·)

/-- A walk with every request sent as bytes returns what a walk returns. -/
theorem walkSent_eq (c : Collection α) (pred : α → Bool) (request : Page) (w : World)
    (bursts : List (List Step)) :
    c.walkSent pred request w bursts = some (c.walk pred request w bursts) := by
  induction bursts generalizing request w with
  -- every request is read from its bytes as it was written, the first and the next
  | nil =>
    rw [walkSent, Page.read?_write]
    rfl
  | cons burst bursts ih =>
    simp only [walkSent, walk, Page.read?_write, Option.bind_eq_bind, Option.bind_some]
    rcases c.find w.store (some request) pred with ⟨_ | results, store⟩
    · rfl
    · dsimp only
      cases results.page.bind Page.following? with
      | none => rfl
      | some next =>
        dsimp only
        rw [ih]
        rfl

/-- What goes over the wire arrives: every page, whatever its numbers and cursors are, and all
    results whose items are plain and leave room for the two levels around them.  So a page that
    is echoed has the same page behind it, and a walk with every request sent as bytes returns
    the same pages. -/
theorem wire_exact {depth : Nat} (hdepth : depth + 2 ≤ Json.maxDepth) :
    (∀ p : Page, Page.read? p.write = some p ∧
      (Page.read? p.write >>= Page.following?) = p.following?) ∧
      (∀ r : Results Json, (∀ v ∈ r.items, v.Plain depth) → Results.read? (r.write id) = some r) ∧
      ∀ (c : Collection α) (pred : α → Bool) (request : Page) (w : World)
        (bursts : List (List Step)),
        c.walkSent pred request w bursts = some (c.walk pred request w bursts) := by
  refine ⟨fun p => ⟨Page.read?_write p, ?_⟩, fun r hitems => Results.read?_write hdepth hitems,
    walkSent_eq⟩
  rw [Page.read?_write, Option.bind_eq_bind, Option.bind_some]

/-- Results with the bounds of whole numbers, signs that are escaped, and letters beyond ASCII. -/
def boxed : Results Json :=
  ⟨[.obj [("", .null), ("a\"\\", .arr [.int (-0x8000000000000000), .int 0xFFFFFFFFFFFFFFFF]),
      ("é\u0001", .obj [("\n", .str "😀/")])]],
    some ⟨0xFFFFFFFF, none, some ⟨"\t\u007F"⟩, 1⟩⟩

/-- Values of every kind are read back, with names and texts that have to be escaped. -/
theorem wire_exact_boxed :
    (∀ v ∈ boxed.items, v.Plain 100) ∧
      Utf8.decode? (boxed.write id) = some
        ("\x7b\"items\":[\x7b\"\":null,\"a\\\"\\\\\":[-9223372036854775808,18446744073709551615],"
          ++ "\"é\\u0001\":\x7b\"\\n\":\"😀/\"\x7d\x7d],\"pagination\":\x7b\"pageSize\":4294967295,"
          ++ "\"current\":null,\"next\":\"\\t\u007f\",\"returnedCount\":1\x7d\x7d") ∧
      Results.read? (boxed.write id) = some boxed := by
  have hplain : ∀ v ∈ boxed.items, v.Plain 100 := by
    refine List.forall_mem_singleton.2 (.obj (by decide +kernel) ?_)
    refine List.forall_mem_cons.2 ⟨.null, List.forall_mem_cons.2 ⟨.arr ?_, ?_⟩⟩
    · -- the least and the greatest whole number that are read exactly
      simp only [List.forall_mem_cons]
      exact ⟨.int (by decide) (by decide), .int (by decide) (by decide), nofun⟩
    · refine List.forall_mem_singleton.2 (.obj (List.pairwise_singleton ..) ?_)
      exact List.forall_mem_singleton.2 (.str _)
  exact ⟨hplain, by decide +kernel, (@wire_exact Json 100 (by decide)).2.1 boxed hplain⟩

end Collection

end EntityStore
