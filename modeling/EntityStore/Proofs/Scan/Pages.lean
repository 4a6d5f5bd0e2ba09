import EntityStore.Proofs.Scan.Demands
import Mathlib.Data.List.Chain
import Mathlib.Data.List.Permutation

/-! # Pages of any sizes

A scan can be asked for one page after the other, each of its own size.  Pages may ask for
nothing, for as much as there is, or for more, and they may be asked for when nothing is left
any more.  However the requests are chosen, the pages cut the values that were ahead of the
scan into pieces, and of a request no more than its size is looked at.

* `Scan.pages`, `Scan.behindPages`  the pages of some requests, and the scan behind them
* `Scan.Serves`                     what one page has to be, given the values that are left
* `Scan.Ahead.behindPages`          the values that are left behind some pages
* `Scan.Ahead.serves`               what one call answers
* `Scan.pages_exact`                the pages of any requests cut what was ahead -/

namespace EntityStore

/-- A count that 32 bits have room for is given as it is. -/
theorem Page.toNat_saturate {n : Nat} (h : n < UInt32.size) : (saturate n).toNat = n := by
  have hmin : min n 0xFFFFFFFF = n := Nat.min_eq_left (Nat.le_of_lt_succ h)
  rw [saturate, hmin, UInt32.toNat_ofNat']
  exact Nat.mod_eq_of_lt h

namespace Scan

variable {σ ρ ω τ : Type} {sel : Selection σ ρ ω τ} {scan : Scan sel} {last : Cursor}
  {values : List (Cursor × τ)}

/-- The scan behind the pages of some requests. -/
def behindPages (scan : Scan sel) (requests : List Page) : Scan sel :=
  requests.foldl (fun scan request => (scan.collect (some request)).2) scan

/-- The pages of some requests, one after the other. -/
def pages (scan : Scan sel) : List Page → List (Results τ)
  | [] => []
  | request :: requests =>
    (scan.collect (some request)).1 :: (scan.collect (some request)).2.pages requests

/-- The number of values that some requests ask for. -/
def asked : List Page → Nat
  | [] => 0
  | request :: requests => request.size.toNat + asked requests

@[simp] theorem behindPages_nil (scan : Scan sel) : scan.behindPages [] = scan := rfl

@[simp] theorem behindPages_cons (scan : Scan sel) (request : Page) (requests : List Page) :
    scan.behindPages (request :: requests) =
      (scan.collect (some request)).2.behindPages requests := rfl

/-- The page of the last request comes last. -/
theorem behindPages_concat (scan : Scan sel) (requests : List Page) (request : Page) :
    scan.behindPages (requests ++ [request]) =
      ((scan.behindPages requests).collect (some request)).2 :=
  List.foldl_append

@[simp] theorem asked_nil : asked [] = 0 := rfl

@[simp] theorem asked_cons (request : Page) (requests : List Page) :
    asked (request :: requests) = request.size.toNat + asked requests := rfl

/-- There is one page for each request. -/
theorem length_pages (scan : Scan sel) (requests : List Page) :
    (scan.pages requests).length = requests.length := by
  induction requests generalizing scan with
  | nil => rfl
  | cons request requests ih => exact congrArg (· + 1) (ih _)

/-- Each call answers with the page of its request. -/
theorem getElem?_pages (scan : Scan sel) (requests : List Page) (i : Nat) :
    (scan.pages requests)[i]? = requests[i]?.map fun request =>
      ((scan.behindPages (requests.take i)).collect (some request)).1 := by
  induction requests generalizing scan i with
  | nil => rfl
  | cons request requests ih =>
    cases i with
    | zero => rfl
    | succ i => exact ih (scan.collect (some request)).2 i

/-! ## One page -/

/-- The page that a call answers a request with, when some values are left in front of it.
    It holds as many of them as were asked for and are there, and lies between the cursors
    that the scan reports in front of the call and behind it. -/
structure Serves (request : Page) (left : List τ) (front behind : Scan sel)
    (results : Results τ) (page : Page) : Prop where
  items_eq : results.items = left.take request.size.toNat
  length_eq : results.items.length = min request.size.toNat left.length
  page_eq : results.page = some page
  size_eq : page.size = request.size
  returned_eq : page.returned.toNat = results.items.length
  current_eq : page.current = some front.cursor
  next_eq : page.next = if request.size.toNat < left.length then some behind.cursor else none
  next_of_zero : request.size = 0 → left ≠ [] → page.next = page.current

/-- Behind some pages, as many values are gone as were asked for. -/
theorem Ahead.behindPages (h : Ahead last scan values) (requests : List Page) :
    Ahead last (scan.behindPages requests) (values.drop (asked requests)) := by
  induction requests generalizing scan values with
  | nil => exact h
  | cons request requests ih =>
    rw [behindPages_cons, asked_cons, ← List.drop_drop]
    exact ih (h.take request.size.toNat).2

/-- What is left behind some pages is what is drained there. -/
theorem Ahead.drain_behindPages (h : Ahead last scan values) (requests : List Page) :
    (scan.behindPages requests).drain.1 =
      ⟨(values.map Prod.snd).drop (asked requests), none⟩ := by
  rw [(h.behindPages requests).drain, List.map_drop]

/-- What one call answers. -/
theorem Ahead.serves (h : Ahead last scan values) (request : Page) :
    ∃ page, Serves request (values.map Prod.snd) scan (scan.collect (some request)).2
      (scan.collect (some request)).1 page := by
  obtain ⟨hitems, hrest⟩ := h.take request.size.toNat
  rw [List.map_take] at hitems
  have hlength : (scan.take request.size.toNat).1.length =
      min request.size.toNat (values.map Prod.snd).length := by
    rw [hitems, List.length_take]
  -- a value is kept ready behind the call just if not all were asked for
  have hnext : (scan.take request.size.toNat).2.hasNext =
      decide (request.size.toNat < (values.map Prod.snd).length) := by
    rw [hrest.hasNext_eq, List.length_map, Bool.eq_iff_iff, Bool.not_eq_true',
      List.isEmpty_eq_false_iff, Ne, List.drop_eq_nil_iff, decide_eq_true_eq, Nat.not_le]
  refine ⟨_, hitems, hlength, rfl, rfl, ?_, rfl, ?_, fun hzero hne => ?_⟩
  · refine Page.toNat_saturate ?_
    rw [hlength]
    exact Nat.lt_of_le_of_lt (Nat.min_le_left ..) request.size.toNat_lt
  · simp only [Page.fill, hnext, decide_eq_true_eq]
    rfl
  · -- a page that asks for nothing leaves the scan where it stands
    have hstays : scan.take request.size.toNat = ([], scan) := by rw [hzero]; rfl
    have hready : scan.hasNext = true := by
      rw [hstays] at hnext
      rw [hnext, hzero, decide_eq_true_eq]
      exact List.length_pos_iff.2 hne
    simp only [Page.fill, hstays, hready, if_true]

/-- A call looks at the size of its request, and at nothing else in it. -/
theorem collect_congr (scan : Scan sel) {request request' : Page}
    (h : request'.size = request.size) :
    scan.collect (some request') = scan.collect (some request) := by
  simp only [collect, takePage, Page.fill, h]

/-! ## Several pages -/

/-- The pages of some requests, and behind them what is left, make up what was ahead. -/
theorem Ahead.flatMap_pages (h : Ahead last scan values) (requests : List Page) :
    (scan.pages requests).flatMap Results.items = (values.map Prod.snd).take (asked requests) := by
  induction requests generalizing scan values with
  | nil => rfl
  | cons request requests ih =>
    have hrest := ih (h.take request.size.toNat).2
    obtain ⟨page, hpage⟩ := h.serves request
    rw [pages, List.flatMap_cons, hpage.items_eq, asked_cons, List.take_add, ← List.map_drop]
    exact congrArg _ hrest

/-- A page starts at the cursor that the page in front of it gives as the next. -/
theorem Ahead.isChain_pages (h : Ahead last scan values) (requests : List Page) :
    (scan.pages requests).IsChain fun a b =>
      ∀ cursor ∈ a.page.bind Page.next, b.page.bind Page.current = some cursor := by
  induction requests generalizing scan values with
  | nil => exact .nil
  | cons request requests ih =>
    -- what is left behind the first page is ahead of the other requests
    have hahead := (h.take request.size.toNat).2
    have hrest := ih hahead
    cases requests with
    | nil => exact .singleton _
    | cons request' requests =>
      refine List.isChain_cons_cons.2 ⟨fun cursor hcursor => ?_, hrest⟩
      obtain ⟨page, hpage⟩ := h.serves request
      obtain ⟨page', hpage'⟩ := hahead.serves request'
      -- the scan stands between the two calls where the one leaves it and the other finds it
      rw [hpage.page_eq, Option.bind_some, hpage.next_eq, Option.mem_def,
        Option.ite_none_right_eq_some] at hcursor
      rw [← hcursor.2]
      exact (congrArg (Option.bind · Page.current) hpage'.page_eq).trans hpage'.current_eq

/-- The pages of any requests cut the values that are ahead of a scan.  Each page takes those
    that are next, as many as its request asks for, and starts where the page in front of it
    ends.  Whatever else a request says makes no difference.  Behind the pages the scan still
    has the other values, with or without a request for no page. -/
theorem pages_exact (h : Ahead last scan values) (requests : List Page) :
    (∀ i request, requests[i]? = some request →
      ∃ results page, (scan.pages requests)[i]? = some results ∧
        Serves request ((values.map Prod.snd).drop (asked (requests.take i)))
          (scan.behindPages (requests.take i)) (scan.behindPages (requests.take (i + 1)))
          results page ∧
        ∀ request' : Page, request'.size = request.size →
          (scan.behindPages (requests.take i)).collect (some request') =
            (results, scan.behindPages (requests.take (i + 1)))) ∧
      (scan.pages requests).length = requests.length ∧
      ((scan.pages requests).IsChain fun a b =>
        ∀ cursor ∈ a.page.bind Page.next, b.page.bind Page.current = some cursor) ∧
      ((scan.behindPages requests).collect none).1 =
        ⟨(values.map Prod.snd).drop (asked requests), none⟩ ∧
      (scan.behindPages requests).drain.1 =
        ⟨(values.map Prod.snd).drop (asked requests), none⟩ ∧
      (scan.pages requests).flatMap Results.items ++ (scan.behindPages requests).drain.1.items =
        values.map Prod.snd := by
  refine ⟨fun i request hi => ?_, scan.length_pages requests, h.isChain_pages requests,
    h.drain_behindPages requests, h.drain_behindPages requests, ?_⟩
  · -- the page is looked at from where the pages in front of it end
    have hfront := h.behindPages (requests.take i)
    obtain ⟨page, hpage⟩ := hfront.serves request
    rw [List.map_drop] at hpage
    have hbehind : scan.behindPages (requests.take (i + 1)) =
        ((scan.behindPages (requests.take i)).collect (some request)).2 := by
      rw [List.take_add_one, hi, Option.toList_some, behindPages_concat]
    rw [← hbehind] at hpage
    refine ⟨_, page, ?_, hpage, fun request' hsize => ?_⟩
    · rw [getElem?_pages, hi, Option.map_some]
    · rw [collect_congr _ hsize, hbehind]
  · -- what the pages took and what they left are all values
    rw [h.flatMap_pages, h.drain_behindPages, List.take_append_drop]

/-- The even numbers of a list, with others among them. -/
def scattered : Scan (.ofFilter (.ofList [some 3, some 4, some 6, some 7, some 8, some 10])
    (.ofPred fun x : Nat => x % 2 == 0)) :=
  start _ 0 () (Source.finite_ofList _ 0)

/-- Requests for nothing, for some, and for more than there is.  They still say what earlier
    pages were like. -/
def uneven : List Page :=
  [.first 1, ⟨0, some ⟨"1"⟩, some ⟨"2"⟩, 1⟩, ⟨2, none, some ⟨"0"⟩, 7⟩, .first 5, .first 1]

/-- Pages of one value, of none, of two and of more than are left. -/
theorem pages_exact_uneven :
    Ahead ⟨"6"⟩ scattered [(⟨"1"⟩, 4), (⟨"2"⟩, 6), (⟨"4"⟩, 8), (⟨"5"⟩, 10)] ∧
      (∃ results page, (scattered.pages uneven)[1]? = some results ∧ results.items = [] ∧
        results.page = some page ∧ page.next = page.current ∧ page.returned.toNat = 0) ∧
      (∃ results page, (scattered.pages uneven)[2]? = some results ∧ results.items = [6, 8] ∧
        results.page = some page ∧ page.size = 2 ∧ page.returned.toNat = 2 ∧
        page.next = some ⟨"5"⟩) ∧
      (scattered.behindPages uneven).drain.1 = ⟨[], none⟩ := by
  have hahead : Ahead ⟨"6"⟩ scattered [(⟨"1"⟩, 4), (⟨"2"⟩, 6), (⟨"4"⟩, 8), (⟨"5"⟩, 10)] :=
    ⟨by cbv, by cbv, by cbv, by cbv, by cbv, by cbv, by cbv, by cbv, by cbv, by cbv⟩
  obtain ⟨hpage, -, -, -, hdrain, -⟩ := pages_exact hahead uneven
  obtain ⟨nothing, page, hnothing, hserves, -⟩ := hpage 1 _ rfl
  obtain ⟨two, page', htwo, hserves', -⟩ := hpage 2 _ rfl
  -- behind the third request two values are left, of which the next is named
  have hcursor : (scattered.behindPages (uneven.take 3)).cursor = ⟨"5"⟩ := by cbv
  have hnext : page'.next = some ⟨"5"⟩ := hcursor ▸ hserves'.next_eq
  refine ⟨hahead, ?_, ?_, hdrain⟩
  · exact ⟨nothing, page, hnothing, hserves.items_eq, hserves.page_eq,
      hserves.next_of_zero rfl (List.cons_ne_nil _ _),
      hserves.returned_eq.trans hserves.length_eq⟩
  · exact ⟨two, page', htwo, hserves'.items_eq, hserves'.page_eq, hserves'.size_eq,
      hserves'.returned_eq.trans hserves'.length_eq, hnext⟩

end Scan

end EntityStore
