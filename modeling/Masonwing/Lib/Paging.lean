import Mathlib.Data.List.Induction
import Mathlib.Data.List.Sort
import Masonwing.Lib.Outcome

/-!
# Pages of an ordered list

A list of rows with strictly growing positions is read in pages. A page starts after a position,
asks for one row more than a batch holds, looks at the rows of the batch one after the other and
shows some of them. It ends when it is full, when enough rows were looked at, or when there are no
more. `Scan` is the state of the page, `scanPage_spec` says that the page has taken an initial part
of the rest of the list and knows whether something is left.
-/

namespace Paging

variable {α κ β ε : Type}

/-- What a page has shown so far, whether rows are left, how many it has looked at, and the position
of the last one of these. -/
structure Scan (κ β : Type) where
  items : List β
  more : Bool
  scanned : Nat
  last : Option κ

/-- A page that starts after a position. -/
def Scan.from (last : Option κ) : Scan κ β := { items := [], more := false, scanned := 0, last }

/-- Whether a page goes on: it is not full, and has not looked at too many rows. -/
def Scan.Open (s : Scan κ β) (limit bound : Nat) : Prop :=
  s.items.length < limit ∧ s.scanned < bound

instance (s : Scan κ β) (limit bound : Nat) : Decidable (s.Open limit bound) :=
  inferInstanceAs (Decidable (_ ∧ _))

/-- One batch; `further` says that there are rows after it. -/
def scanBatch (position : α → κ) (emit : α → Except ε (Option β)) (limit : Nat) (further : Bool) :
    List α → Scan κ β → Except ε (Scan κ β)
  | [], s => .ok s
  | a :: rows, s => do
    let item ← emit a
    let s' : Scan κ β :=
      { items := s.items ++ item.toList
        more := further || !rows.isEmpty
        scanned := s.scanned + 1
        last := some (position a) }
    if s'.items.length = limit then return s' else scanBatch position emit limit further rows s'

/-- Batch after batch, while the page goes on. -/
def scanPage (position : α → κ) (emit : α → Except ε (Option β)) (query : Option κ → List α)
    (limit bound batch : Nat) : Nat → Scan κ β → Except ε (Scan κ β)
  | 0, s => .ok s
  | fuel + 1, s =>
    if s.Open limit bound then
      let rows := query s.last
      if rows.isEmpty then .ok { s with more := false }
      else do
        let s' ← scanBatch position emit limit (decide (batch < rows.length)) (rows.take batch) s
        if s'.more then scanPage position emit query limit bound batch fuel s' else return s'
    else .ok s

/-! ## What is left -/

section Rest

variable [LinearOrder κ] {position : α → κ}

/-- The rows after a position. -/
def rest (position : α → κ) (rows : List α) : Option κ → List α
  | none => rows
  | some k => rows.filter fun a => decide (k < position a)

/-- The positions grow strictly. -/
def Ordered (position : α → κ) (rows : List α) : Prop :=
  rows.Pairwise fun a b => position a < position b

/-- The rows in the order of their positions. -/
def sortRows (position : α → κ) (rows : List α) : List α :=
  rows.insertionSort fun a b => position a ≤ position b

/-- No position occurs twice. -/
def Distinct (position : α → κ) (rows : List α) : Prop :=
  rows.Pairwise fun a b => position a ≠ position b

theorem Distinct.filter {rows : List α} (h : Distinct position rows) (p : α → Bool) :
    Distinct position (rows.filter p) :=
  List.Pairwise.sublist List.filter_sublist h

theorem ordered_sortRows {rows : List α} (h : Distinct position rows) :
    Ordered position (sortRows position rows) := by
  have : Std.Total fun a b : α => position a ≤ position b := ⟨fun a b => le_total _ _⟩
  have : IsTrans α fun a b : α => position a ≤ position b := ⟨fun a b c => le_trans⟩
  have hSorted : (sortRows position rows).Pairwise fun a b => position a ≤ position b :=
    List.pairwise_insertionSort _ rows
  have hDistinct : (sortRows position rows).Pairwise fun a b => position a ≠ position b :=
    (List.perm_insertionSort _ rows).symm.pairwise h Ne.symm
  exact (hSorted.and hDistinct).imp fun h => lt_of_le_of_ne h.1 h.2

theorem mem_sortRows {rows : List α} {a : α} : a ∈ sortRows position rows ↔ a ∈ rows :=
  List.mem_insertionSort _

/-- What is after a position can be looked for before or after sorting. -/
theorem sortRows_rest {rows : List α} (h : Distinct position rows) (last : Option κ) :
    sortRows position (rest position rows last) = rest position (sortRows position rows) last := by
  cases last with
  | none => rfl
  | some k =>
    have hLeft : Ordered position (sortRows position (rest position rows (some k))) :=
      ordered_sortRows (h.filter _)
    have hRight : Ordered position (rest position (sortRows position rows) (some k)) :=
      List.Pairwise.sublist List.filter_sublist (ordered_sortRows h)
    have hPerm : (sortRows position (rest position rows (some k))).Perm
        (rest position (sortRows position rows) (some k)) :=
      (List.perm_insertionSort _ _).trans
        ((List.perm_insertionSort _ rows).symm.filter _)
    exact hPerm.eq_of_pairwise (fun a b _ _ hLt hGt => absurd hLt hGt.asymm) hLeft hRight

theorem rest_append {before after : List α} {a : α}
    (h : Ordered position (before ++ a :: after)) :
    rest position (before ++ a :: after) (some (position a)) = after := by
  obtain ⟨-, hAfter, hBefore⟩ := List.pairwise_append.mp h
  have hNone : before.filter (fun b => decide (position a < position b)) = [] := by
    apply List.filter_eq_nil_iff.mpr
    intro b hb
    rw [decide_eq_true_eq]
    exact (hBefore b hb a List.mem_cons_self).le.not_gt
  have hAll : after.filter (fun b => decide (position a < position b)) = after := by
    apply List.filter_eq_self.mpr
    intro b hb
    exact decide_eq_true ((List.pairwise_cons.mp hAfter).1 b hb)
  rw [rest, List.filter_append, hNone, List.nil_append,
    List.filter_cons_of_neg (by simp), hAll]

/-- What is left after some more rows were looked at. -/
theorem rest_taken {rows before taken after : List α} {last : Option κ}
    (hOrdered : Ordered position rows) (hRows : rows = before ++ (taken ++ after))
    (hRest : rest position rows last = taken ++ after) :
    rest position rows (taken.getLast?.map position <|> last) = after := by
  induction taken using List.reverseRecOn with
  | nil => exact hRest
  | append_singleton taken a _ =>
    rw [List.getLast?_concat]
    subst hRows
    have hSplit : before ++ (taken ++ [a] ++ after) = (before ++ taken) ++ a :: after := by
      simp
    rw [hSplit] at hOrdered ⊢
    exact rest_append hOrdered

end Rest

/-! ## One page -/

section Page

variable {position : α → κ} {emit : α → Except ε (Option β)} {view : α → Option β}
  {limit bound batch : Nat}

/-- The scan after some more rows. -/
structure Advanced (position : α → κ) (view : α → Option β) (limit : Nat) (s s' : Scan κ β)
    (taken : List α) : Prop where
  items : s'.items = s.items ++ taken.filterMap view
  full : s'.items.length ≤ limit
  scanned : s'.scanned = s.scanned + taken.length
  last : s'.last = (taken.getLast?.map position <|> s.last)

theorem Advanced.refl {s : Scan κ β} (h : s.items.length ≤ limit) :
    Advanced position view limit s s [] :=
  ⟨by simp, h, rfl, rfl⟩

theorem Advanced.trans {s s' s'' : Scan κ β} {taken more : List α}
    (h : Advanced position view limit s s' taken)
    (hMore : Advanced position view limit s' s'' more) :
    Advanced position view limit s s'' (taken ++ more) := by
  constructor
  · rw [hMore.items, h.items, List.append_assoc, List.filterMap_append]
  · exact hMore.full
  · rw [hMore.scanned, h.scanned, List.length_append, Nat.add_assoc]
  · rw [hMore.last, h.last, List.getLast?_append]
    cases more.getLast? <;> rfl

theorem scanBatch_spec {rows : List α} {s : Scan κ β} {further : Bool}
    (hEmit : ∀ a ∈ rows, emit a = .ok (view a)) (hLimit : s.items.length < limit) :
    ∃ taken left s', rows = taken ++ left ∧
      scanBatch position emit limit further rows s = .ok s' ∧
      Advanced position view limit s s' taken ∧
      (rows ≠ [] → taken ≠ [] ∧ s'.more = (further || !left.isEmpty)) ∧
      (left ≠ [] → s'.items.length = limit) := by
  induction rows generalizing s with
  | nil => exact ⟨[], [], s, rfl, rfl, .refl (Nat.le_of_lt hLimit), fun h => absurd rfl h, fun h => absurd rfl h⟩
  | cons a rows ih =>
    have hItem : emit a = .ok (view a) := hEmit a List.mem_cons_self
    let s₁ : Scan κ β :=
      { items := s.items ++ (view a).toList
        more := further || !rows.isEmpty
        scanned := s.scanned + 1
        last := some (position a) }
    have hLength : s₁.items.length ≤ limit := by
      show (s.items ++ (view a).toList).length ≤ limit
      rw [List.length_append]
      have hOne : (view a).toList.length ≤ 1 := by cases view a <;> simp
      omega
    have hFirst : Advanced position view limit s s₁ [a] := by
      refine ⟨?_, hLength, rfl, rfl⟩
      show s.items ++ (view a).toList = _
      cases hView : view a <;> simp [hView]
    have hScan : scanBatch position emit limit further (a :: rows) s =
        if s₁.items.length = limit then .ok s₁
        else scanBatch position emit limit further rows s₁ := by
      rw [scanBatch, hItem]
      rfl
    by_cases hFull : s₁.items.length = limit
    · refine ⟨[a], rows, s₁, rfl, ?_, hFirst, fun _ => ⟨List.cons_ne_nil a [], rfl⟩,
        fun _ => hFull⟩
      rw [hScan, if_pos hFull]
    · obtain ⟨taken, left, s', hRows, hRest, hAdvanced, hMore, hLeft⟩ :=
        ih (s := s₁) (fun b hb => hEmit b (List.mem_cons_of_mem a hb)) (by omega)
      refine ⟨a :: taken, left, s', ?_, ?_, hFirst.trans hAdvanced, fun _ => ?_, hLeft⟩
      · rw [hRows, List.cons_append]
      · rw [hScan, if_neg hFull]
        exact hRest
      · refine ⟨List.cons_ne_nil a taken, ?_⟩
        cases rows with
        | nil =>
          obtain ⟨rfl, rfl⟩ := List.append_eq_nil_iff.mp hRows.symm
          rw [← Except.ok.inj hRest]
        | cons b rows => exact (hMore (List.cons_ne_nil b rows)).2

variable [LinearOrder κ]

/-- A page has taken an initial part of what was left, and says whether there is more. -/
structure Page (position : α → κ) (view : α → Option β) (limit bound batch : Nat) (rows : List α)
    (s s' : Scan κ β) (taken left : List α) : Prop where
  split : rest position rows s.last = taken ++ left
  advanced : Advanced position view limit s s' taken
  left_eq : rest position rows s'.last = left
  more : s'.more = true ↔ left ≠ []
  bounded : s'.scanned < bound + batch
  progress : s.Open limit bound → left ≠ [] → taken ≠ []

/-- One batch of a page that goes on. -/
theorem scanBatch_page {rows before : List α} {s : Scan κ β} (hOrdered : Ordered position rows)
    (hEmit : ∀ a ∈ rows, emit a = .ok (view a)) (hBatch : 0 < batch)
    (hRows : rows = before ++ rest position rows s.last) (hOpen : s.Open limit bound)
    (hLeft : rest position rows s.last ≠ []) :
    ∃ taken left s', scanBatch position emit limit
        (decide (batch < ((rest position rows s.last).take (batch + 1)).length))
        (((rest position rows s.last).take (batch + 1)).take batch) s = .ok s' ∧
      taken ≠ [] ∧ Page position view limit bound batch rows s s' taken left := by
  generalize hRest : rest position rows s.last = tail at hRows hLeft ⊢
  rw [List.take_take, Nat.min_eq_left (Nat.le_succ batch)]
  have hFurther : decide (batch < (tail.take (batch + 1)).length) = !(tail.drop batch).isEmpty := by
    rw [List.length_take]
    cases hDrop : tail.drop batch with
    | nil =>
      have hShort := List.drop_eq_nil_iff.mp hDrop
      simp only [List.isEmpty_nil, Bool.not_true, decide_eq_false_iff_not]
      omega
    | cons b bs =>
      have hLong := congrArg List.length hDrop
      rw [List.length_drop, List.length_cons] at hLong
      simp only [List.isEmpty_cons, Bool.not_false, decide_eq_true_eq]
      omega
  have hSome : tail.take batch ≠ [] := by
    rw [ne_eq, List.take_eq_nil_iff]
    exact not_or.mpr ⟨Nat.ne_of_gt hBatch, hLeft⟩
  have hEmitted : ∀ a ∈ tail.take batch, emit a = .ok (view a) := by
    intro a ha
    apply hEmit
    rw [hRows]
    exact List.mem_append_right before (List.mem_of_mem_take ha)
  obtain ⟨taken, left, s', hTake, hScan, hAdvanced, hMore, -⟩ :=
    scanBatch_spec hEmitted hOpen.1
  obtain ⟨hTaken, hFlag⟩ := hMore hSome
  have hSplit : tail = taken ++ (left ++ tail.drop batch) := by
    rw [← List.append_assoc, ← hTake, List.take_append_drop]
  have hLength : taken.length ≤ batch := by
    have hSum := congrArg List.length hTake
    rw [List.length_append, List.length_take] at hSum
    omega
  refine ⟨taken, left ++ tail.drop batch, s', hScan, hTaken, hRest.trans hSplit, hAdvanced, ?_, ?_,
    ?_, fun _ _ => hTaken⟩
  · rw [hAdvanced.last]
    have hTail : rows = before ++ (taken ++ (left ++ tail.drop batch)) := by
      rw [← hSplit]
      exact hRows
    exact rest_taken hOrdered hTail (hRest.trans hSplit)
  · rw [hFlag, hFurther]
    cases left with
    | nil => cases tail.drop batch <;> simp
    | cons b bs => simp
  · have hScanned := hAdvanced.scanned
    have hStart := hOpen.2
    omega

/-- A page that is full or has looked at enough takes nothing. -/
theorem Page.stopped {rows : List α} {s : Scan κ β} (hLimit : s.items.length ≤ limit)
    (hBound : s.scanned < bound + batch) (hMore : s.more = true)
    (hLeft : rest position rows s.last ≠ []) (hShut : ¬ s.Open limit bound) :
    Page position view limit bound batch rows s s [] (rest position rows s.last) :=
  ⟨rfl, .refl hLimit, rfl, ⟨fun _ => hLeft, fun _ => hMore⟩, hBound, fun h => absurd h hShut⟩

/-- The next part of a page takes on where the first one has stopped. -/
theorem Page.trans {rows taken left taken' left' : List α} {s s' s'' : Scan κ β}
    (h : Page position view limit bound batch rows s s' taken left) (hTaken : taken ≠ [])
    (hNext : Page position view limit bound batch rows s' s'' taken' left') :
    Page position view limit bound batch rows s s'' (taken ++ taken') left' := by
  refine ⟨?_, h.advanced.trans hNext.advanced, hNext.left_eq, hNext.more, hNext.bounded,
    fun _ _ => List.append_ne_nil_of_left_ne_nil hTaken _⟩
  rw [h.split, List.append_assoc, ← hNext.split, h.left_eq]

/-- A page that starts open, or that knows already that there is more, is a page. -/
theorem scanPage_spec {rows before : List α} {query : Option κ → List α} {fuel : Nat}
    {s : Scan κ β} (hOrdered : Ordered position rows)
    (hQuery : ∀ last, query last = (rest position rows last).take (batch + 1))
    (hEmit : ∀ a ∈ rows, emit a = .ok (view a)) (hBatch : 0 < batch)
    (hRows : rows = before ++ rest position rows s.last) (hLimit : s.items.length ≤ limit)
    (hFuel : bound ≤ fuel + s.scanned) (hBound : s.scanned < bound + batch)
    (hOpen : s.Open limit bound ∨ (s.more = true ∧ rest position rows s.last ≠ [])) :
    ∃ taken left s', scanPage position emit query limit bound batch fuel s = .ok s' ∧
      Page position view limit bound batch rows s s' taken left := by
  induction fuel generalizing before s with
  | zero =>
    have hShut : ¬ s.Open limit bound := by
      rintro ⟨-, hScanned⟩
      omega
    obtain ⟨hMore, hLeft⟩ := hOpen.resolve_left hShut
    exact ⟨[], _, s, rfl, .stopped hLimit hBound hMore hLeft hShut⟩
  | succ fuel ih =>
    by_cases hGo : s.Open limit bound
    swap
    · obtain ⟨hMore, hLeft⟩ := hOpen.resolve_left hGo
      refine ⟨[], _, s, ?_, .stopped hLimit hBound hMore hLeft hGo⟩
      rw [scanPage, if_neg hGo]
    rw [scanPage, if_pos hGo, hQuery]
    by_cases hLeft : rest position rows s.last = []
    · rw [hLeft]
      refine ⟨[], [], { s with more := false }, rfl, hLeft, ⟨?_, hLimit, rfl, rfl⟩, hLeft, ?_,
        hBound, fun _ h => absurd rfl h⟩
      · simp
      · simp
    obtain ⟨taken, left, s₁, hScan, hTaken, hPage⟩ :=
      scanBatch_page hOrdered hEmit hBatch hRows hGo hLeft
    have hSome : ((rest position rows s.last).take (batch + 1)).isEmpty = false := by
      cases hRest : rest position rows s.last with
      | nil => exact absurd hRest hLeft
      | cons a tail => rfl
    dsimp only
    rw [if_neg (by rw [hSome]; exact Bool.false_ne_true), hScan]
    show ∃ taken left s', (if s₁.more = true then
      scanPage position emit query limit bound batch fuel s₁ else .ok s₁) = .ok s' ∧ _
    by_cases hMore : s₁.more = true
    · have hSplit : rows = (before ++ taken) ++ rest position rows s₁.last := by
        rw [hPage.left_eq, List.append_assoc, ← hPage.split]
        exact hRows
      have hFuel' : bound ≤ fuel + s₁.scanned := by
        have hPositive := List.length_pos_iff.mpr hTaken
        rw [hPage.advanced.scanned]
        omega
      obtain ⟨taken', left', s', hThen, hNext⟩ := ih hSplit hPage.advanced.full hFuel'
        hPage.bounded (Or.inr ⟨hMore, hPage.left_eq ▸ hPage.more.mp hMore⟩)
      refine ⟨taken ++ taken', left', s', ?_, hPage.trans hTaken hNext⟩
      rw [if_pos hMore]
      exact hThen
    · refine ⟨taken, left, s₁, ?_, hPage⟩
      rw [if_neg hMore]

end Page

end Paging
