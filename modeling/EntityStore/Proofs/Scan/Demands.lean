import EntityStore.Proofs.Scan.Calls

/-! # Demands on a scan

A caller asks a scan for single values and for pages, in any order.  What is ahead of a scan
decides all its answers, so scans that have the same ahead cannot be told apart.

* `Scan.Demand`            what a scan can be asked for
* `Scan.answers`           the answers to some demands, one after the other
* `Scan.beyond_eq_behindAll`  a demand moves a scan as some calls of `next` do
* `Scan.exists_ahead`      every scan has some values ahead, until it comes to its end
* `Scan.Ahead.answers_eq`  scans that have the same ahead give the same answers -/

namespace EntityStore

namespace Scan

variable {σ ρ ω τ : Type} {sel : Selection σ ρ ω τ} {scan : Scan sel}

/-- What a scan can be asked for: a single call, a page of a request or all without one, and
    all that is left. -/
inductive Demand where
  | call (call : Call)
  | collect (request : Option Page)
  | drain
deriving DecidableEq, Repr

/-- What a scan answers. -/
inductive Answer (τ : Type) where
  | value (value : Option τ)
  | ready (hasNext : Bool)
  | place (cursor : Cursor)
  | removal (result : Except Error Unit)
  | results (results : Results τ)

/-- The answer to a demand. -/
def answer (scan : Scan sel) : Demand → Answer τ
  | .call .next => .value scan.next.1
  | .call .peek => .value scan.peek
  | .call .hasNext => .ready scan.hasNext
  | .call .cursor => .place scan.cursor
  | .call .remove => .removal scan.remove
  | .collect request => .results (scan.collect request).1
  | .drain => .results scan.drain.1

/-- The scan behind a demand. -/
def beyond (scan : Scan sel) : Demand → Scan sel
  | .call call => scan.behind call
  | .collect request => (scan.collect request).2
  | .drain => scan.drain.2

/-- The scan behind some demands. -/
def beyondAll (scan : Scan sel) (demands : List Demand) : Scan sel := demands.foldl beyond scan

/-- The answers to some demands, one after the other. -/
def answers (scan : Scan sel) : List Demand → List (Answer τ)
  | [] => []
  | demand :: demands => scan.answer demand :: (scan.beyond demand).answers demands

/-! ## Moving on -/

/-- Calls behind others start where those end. -/
theorem behindAll_append (scan : Scan sel) (calls calls' : List Call) :
    scan.behindAll (calls ++ calls') = (scan.behindAll calls).behindAll calls' :=
  List.foldl_append

/-- A scan at its end stays there. -/
theorem behindAll_of_none (h : scan.lookahead = none) (calls : List Call) :
    scan.behindAll calls = scan := by
  induction calls with
  | nil => rfl
  | cons call calls ih =>
    have hcall : scan.behind call = scan := by
      cases call with
      | next => rw [behind, next_of_none h]
      | _ => rfl
    rw [behindAll_cons, hcall, ih]

/-- Taking some values moves a scan as that many calls for the next one do. -/
theorem take_snd (n : Nat) (scan : Scan sel) :
    (scan.take n).2 = scan.behindAll (List.replicate n .next) := by
  induction n generalizing scan with
  | zero => rfl
  | succ n ih =>
    cases h : scan.lookahead with
    -- at the end both stay where they are
    | none => rw [take, next_of_none h, behindAll_of_none h]
    | some value =>
      have hnext : scan.next = (some value, scan.next.2) := Prod.ext (next_fst h) rfl
      rw [take, hnext, List.replicate_succ, behindAll_cons]
      exact ih scan.next.2

/-- Taking all values moves a scan as some number of calls for the next one do. -/
theorem takeAll_snd (scan : Scan sel) :
    ∃ n, scan.takeAll.2 = scan.behindAll (List.replicate n .next) := by
  -- a scan comes to its end, so its successors carry the induction
  induction scan using wellFounded_successor.induction with
  | _ scan ih =>
    unfold takeAll
    split
    · next rest hnone =>
      refine ⟨1, ?_⟩
      rw [List.replicate_one, behindAll_cons, behind, hnone]
      rfl
    · next value rest hsome =>
      obtain ⟨n, hn⟩ := ih rest ⟨value, hsome⟩
      refine ⟨n + 1, ?_⟩
      rw [List.replicate_succ, behindAll_cons, behind, hsome]
      exact hn

/-- A demand moves a scan as some calls of `next` do. -/
theorem beyond_eq_behindAll (scan : Scan sel) (demand : Demand) :
    ∃ calls, scan.beyond demand = scan.behindAll calls := by
  cases demand with
  | call call => exact ⟨[call], rfl⟩
  | drain =>
    obtain ⟨n, hn⟩ := scan.takeAll_snd
    exact ⟨_, hn⟩
  -- a page takes as many values as were asked for, and no page takes all
  | collect request =>
    cases request with
    | none =>
      obtain ⟨n, hn⟩ := scan.takeAll_snd
      exact ⟨_, hn⟩
    | some request => exact ⟨_, scan.take_snd request.size.toNat⟩

/-- Whatever is demanded of a scan, it moves as some calls move it. -/
theorem beyondAll_eq_behindAll (scan : Scan sel) (demands : List Demand) :
    ∃ calls, scan.beyondAll demands = scan.behindAll calls := by
  induction demands generalizing scan with
  | nil => exact ⟨[], rfl⟩
  | cons demand demands ih =>
    obtain ⟨first, hfirst⟩ := scan.beyond_eq_behindAll demand
    obtain ⟨later, hlater⟩ := ih (scan.beyond demand)
    -- the calls of the first demand, and then those of the others
    refine ⟨first ++ later, ?_⟩
    rw [behindAll_append, ← hfirst]
    exact hlater

/-! ## What is ahead decides the answers -/

/-- Every scan has some values ahead, until it comes to its end. -/
theorem exists_ahead (scan : Scan sel) : ∃ last values, Ahead last scan values := by
  induction scan using wellFounded_successor.induction with
  | _ scan ih =>
    cases h : scan.lookahead with
    | none => exact ⟨scan.cursor, [], h, rfl⟩
    | some value =>
      obtain ⟨last, values, hrest⟩ := ih scan.next.2 ⟨value, Prod.ext (next_fst h) rfl⟩
      exact ⟨last, (scan.cursor, value) :: values, h, rfl, hrest⟩

/-- What is left of the values ahead behind a demand. -/
def left (values : List (Cursor × τ)) : Demand → List (Cursor × τ)
  | .call .next => values.drop 1
  | .call _ => values
  | .collect (some request) => values.drop request.size.toNat
  | .collect none | .drain => []

namespace Ahead

variable {last : Cursor} {values : List (Cursor × τ)}

/-- Behind the next value, the others are ahead. -/
theorem next (h : Ahead last scan values) : Ahead last scan.next.2 (values.drop 1) := by
  cases values with
  | nil =>
    rw [next_of_none h.1]
    exact h
  | cons v values => exact h.2.2

/-- Behind all of its values a scan has none ahead. -/
theorem takeAll_snd (h : Ahead last scan values) : Ahead last scan.takeAll.2 [] := by
  induction values generalizing scan with
  | nil =>
    unfold Scan.takeAll
    split
    · next hnone =>
      rw [next_of_none h.1] at hnone
      obtain ⟨-, rfl⟩ := Prod.mk.inj hnone
      exact h
    · -- nothing is ahead, so no value can be handed out
      next hsome => cases (next_of_none h.1).symm.trans hsome
  | cons v values ih =>
    obtain ⟨hready, -, hrest⟩ := h
    unfold Scan.takeAll
    split
    · next hnone => cases (next_fst hready).symm.trans (congrArg Prod.fst hnone)
    · next hsome =>
      rw [hsome] at hrest
      exact ih hrest

/-- What is ahead of a scan behind a demand is what the demand leaves. -/
theorem beyond (h : Ahead last scan values) (demand : Demand) :
    Ahead last (scan.beyond demand) (left values demand) := by
  cases demand with
  | call call =>
    -- the other calls only look
    cases call with
    | next => exact h.next
    | _ => exact h
  | drain => exact h.takeAll_snd
  | collect request =>
    cases request with
    | none => exact h.takeAll_snd
    | some request => exact (h.take request.size.toNat).2

variable {σ' ρ' ω' : Type} {sel' : Selection σ' ρ' ω' τ} {scan' : Scan sel'}

/-- Scans that have the same values ahead answer alike. -/
theorem answer_eq (h : Ahead last scan values) (h' : Ahead last scan' values) (demand : Demand) :
    scan.answer demand = scan'.answer demand := by
  -- the value kept ready is the first of those ahead
  have hready : scan.lookahead = scan'.lookahead := by
    cases values with
    | nil => rw [h.1, h'.1]
    | cons v values => rw [h.1, h'.1]
  have hall : scan.drain.1 = scan'.drain.1 := h.drain.trans h'.drain.symm
  -- no answer depends on anything but the value kept ready and what is behind it
  cases demand with
  | call call =>
    cases call with
    | next => rw [answer, answer, next_fst_eq, next_fst_eq, hready]
    | peek => rw [answer, answer, peek, peek, hready]
    | hasNext => rw [answer, answer, h.hasNext_eq, h'.hasNext_eq]
    | cursor => rw [answer, answer, h.cursor_eq, h'.cursor_eq]
    | remove => rfl
  | drain => rw [answer, answer, hall]
  | collect request =>
    cases request with
    | none => exact congrArg Answer.results hall
    | some request =>
      exact congrArg Answer.results ((h.takePage request).trans (h'.takePage request).symm)

/-- Scans that have the same ahead give the same answers. -/
theorem answers_eq (h : Ahead last scan values) (h' : Ahead last scan' values)
    (demands : List Demand) : scan.answers demands = scan'.answers demands := by
  induction demands generalizing scan scan' values with
  | nil => rfl
  | cons demand demands ih =>
    rw [answers, answers, h.answer_eq h' demand, ih (h.beyond demand) (h'.beyond demand)]

end Ahead

end Scan

end EntityStore
