import Mathlib.Data.List.Basic

/-!
# Reading a growing list page by page

A client reads a long list in pages and passes a cursor from one request to the
next.  Between two requests the list may grow, so round `r` sees a list of its
own, `views r`; every later view continues the earlier ones.  Items are ordered
by a key, and a page shorter than the limit ends the reading.

* Backward (`pagesBack`): the newest items first, then those below the smallest
  key of the page before.
* Forward (`pagesForward`): the items above the cursor, then those above the
  largest key seen.

## Main results

* `pagesBack_complete`: reading backward ends, and returns the first view.
* `pagesForward_complete`: reading forward returns everything above the cursor that
  the last view has.
* `pagesForward_ends`: reading forward ends when the views stay bounded.
* `exists_before_lastPage_iff`, `exists_above_nextCursor_iff`: a page leaves something
  exactly where there are more items than its limit.
-/

namespace CppChat.Verified.CursorPaging

variable {α : Type} {key : α → Nat}

/-- Keys ascend strictly along the list. -/
abbrev Ascending (key : α → Nat) (items : List α) : Prop :=
  items.Pairwise fun a b => key a < key b

/-- The items in front of one are those with a smaller key. -/
theorem filter_lt_of_ascending {front back : List α} {b : α}
    (h : Ascending key (front ++ b :: back)) :
    ((front ++ b :: back).filter fun a => decide (key a < key b)) = front := by
  obtain ⟨-, hBack, hCross⟩ := List.pairwise_append.mp h
  have hFront : ∀ a ∈ front, decide (key a < key b) = true := by
    intro a ha
    exact decide_eq_true (hCross a ha b List.mem_cons_self)
  have hRest : ∀ a ∈ b :: back, ¬decide (key a < key b) = true := by
    intro a ha
    rw [decide_eq_true_eq, Nat.not_lt]
    rcases List.mem_cons.mp ha with rfl | hMem
    · exact Nat.le_refl _
    · exact Nat.le_of_lt (List.rel_of_pairwise_cons hBack hMem)
  rw [List.filter_append, List.filter_eq_self.mpr hFront, List.filter_eq_nil_iff.mpr hRest,
    List.append_nil]

/-! ## Backward -/

/-- The items below the cursor; a cursor of zero stands for none. -/
def below (key : α → Nat) (before : Nat) (items : List α) : List α :=
  items.filter fun a => decide (before = 0) || decide (key a < before)

/-- The newest items, oldest first. -/
def lastPage (limit : Nat) (items : List α) : List α := items.drop (items.length - limit)

/-- The cursor behind a page: the key of its oldest item, zero if it is empty. -/
def nextBefore (key : α → Nat) : List α → Nat
  | [] => 0
  | a :: _ => key a

/-- Read backward from round `round` and cursor `before`.  `none` means that the
fuel did not suffice. -/
def pagesBack (key : α → Nat) (limit : Nat) (views : Nat → List α) :
    Nat → Nat → Nat → Option (List (List α))
  | 0, _, _ => none
  | fuel + 1, round, before =>
      let page := lastPage limit (below key before (views round))
      if page.length = limit then
        (pagesBack key limit views fuel (round + 1) (nextBefore key page)).map (page :: ·)
      else some [page]

theorem below_zero (items : List α) : below key 0 items = items := by
  simp [below]

/-- The items below one of them are those in front of it. -/
theorem below_key {front back : List α} {b : α} (h : Ascending key (front ++ b :: back))
    (hPos : 1 ≤ key b) : below key (key b) (front ++ b :: back) = front := by
  have hZero : decide (key b = 0) = false := decide_eq_false (by omega)
  unfold below
  rw [hZero]
  simp only [Bool.false_or]
  exact filter_lt_of_ascending h

/-- Reading on from a cursor returns what is below it, whatever has been added
above. -/
theorem pagesBack_of_below {limit : Nat} {views : Nat → List α} (hLimit : 1 ≤ limit)
    (hGrow : ∀ r, views 0 <+: views r) (hSorted : ∀ r, Ascending key (views r))
    (hPos : ∀ a ∈ views 0, 1 ≤ key a) :
    ∀ (fuel round before : Nat) (rest : List α), rest <+: views 0 →
      below key before (views round) = rest → rest.length < fuel →
        ∃ pages, pagesBack key limit views fuel round before = some pages ∧
          pages.reverse.flatten = rest := by
  intro fuel
  induction fuel with
  | zero =>
      intro round before rest _ _ hFuel
      exact absurd hFuel (Nat.not_lt_zero _)
  | succ fuel ih =>
      intro round before rest hPrefix hBelow hFuel
      rw [pagesBack, hBelow]
      have hSplit : rest.take (rest.length - limit) ++ lastPage limit rest = rest :=
        List.take_append_drop _ _
      have hLength : (lastPage limit rest).length = rest.length - (rest.length - limit) :=
        List.length_drop
      by_cases hFull : (lastPage limit rest).length = limit
      · rw [if_pos hFull]
        cases hPage : lastPage limit rest with
        | nil =>
            rw [hPage, List.length_nil] at hFull
            omega
        | cons b back =>
            rw [hPage] at hSplit
            have hShorter : (rest.take (rest.length - limit)).length < fuel := by
              rw [List.length_take]
              omega
            generalize rest.take (rest.length - limit) = front at hSplit hShorter
            -- the next view continues the first one, of which `rest` is a part
            obtain ⟨tail, hTail⟩ := hPrefix
            obtain ⟨ext, hExt⟩ := hGrow (round + 1)
            have hFirst : front ++ b :: (back ++ tail) = views 0 := by
              rw [← hTail, ← hSplit]
              simp
            have hView : front ++ b :: (back ++ tail ++ ext) = views (round + 1) := by
              rw [← hExt, ← hFirst]
              simp
            have hKey : 1 ≤ key b := hPos b (by rw [← hFirst]; simp)
            have hNext : below key (key b) (views (round + 1)) = front := by
              rw [← hView]
              exact below_key (hView ▸ hSorted (round + 1)) hKey
            obtain ⟨pages, hPages, hFlat⟩ :=
              ih (round + 1) (key b) front ⟨_, hFirst⟩ hNext hShorter
            refine ⟨(b :: back) :: pages, ?_, ?_⟩
            · show (pagesBack key limit views fuel (round + 1) (key b)).map _ = _
              rw [hPages]
              rfl
            · rw [List.reverse_cons, List.flatten_append, hFlat, List.flatten_singleton]
              exact hSplit
      · rw [if_neg hFull]
        have hAll : lastPage limit rest = rest := by
          have : rest.length - limit = 0 := by omega
          rw [lastPage, this, List.drop_zero]
        refine ⟨[lastPage limit rest], rfl, ?_⟩
        rw [hAll]
        simp

/-- Reading backward ends, and the pages, oldest first, are the view of the first
round. -/
theorem pagesBack_complete {limit : Nat} {views : Nat → List α} (hLimit : 1 ≤ limit)
    (hGrow : ∀ r, views 0 <+: views r) (hSorted : ∀ r, Ascending key (views r))
    (hPos : ∀ a ∈ views 0, 1 ≤ key a) {fuel : Nat} (hFuel : (views 0).length < fuel) :
    ∃ pages, pagesBack key limit views fuel 0 0 = some pages ∧
      pages.reverse.flatten = views 0 :=
  pagesBack_of_below hLimit hGrow hSorted hPos fuel 0 0 (views 0) (List.prefix_refl _)
    (below_zero _) hFuel

/-- An item in front of the last page is left exactly where the page does not take
them all. -/
theorem exists_before_lastPage_iff (limit : Nat) {items : List α}
    (hSorted : Ascending key items) :
    (∃ a ∈ items, ∀ b ∈ lastPage limit items, key a < key b) ↔ limit < items.length := by
  constructor
  · rintro ⟨a, ha, hBefore⟩
    by_cases hLe : items.length ≤ limit
    · have hAll : lastPage limit items = items := by
        rw [lastPage, Nat.sub_eq_zero_of_le hLe, List.drop_zero]
      rw [hAll] at hBefore
      exact absurd (hBefore a ha) (Nat.lt_irrefl _)
    · omega
  · intro hMore
    have hSplit : items.take (items.length - limit) ++ lastPage limit items = items :=
      List.take_append_drop _ _
    cases hFront : items.take (items.length - limit) with
    | nil =>
        have hLength := congrArg List.length hFront
        rw [List.length_take, List.length_nil] at hLength
        omega
    | cons a front =>
        have hMem : a ∈ items.take (items.length - limit) := by simp [hFront]
        rw [← hSplit] at hSorted
        obtain ⟨-, -, hCross⟩ := List.pairwise_append.mp hSorted
        exact ⟨a, List.mem_of_mem_take hMem, hCross a hMem⟩

/-! ## Forward -/

/-- The items above the cursor. -/
def above (key : α → Nat) (cursor : Nat) (items : List α) : List α :=
  items.filter fun a => decide (cursor < key a)

/-- The cursor behind a page: the largest key seen. -/
def nextCursor (key : α → Nat) (cursor : Nat) (page : List α) : Nat :=
  page.foldl (fun next a => max next (key a)) cursor

/-- Read forward; each round is its page and the cursor behind it. -/
def pagesForward (key : α → Nat) (limit : Nat) (views : Nat → List α) :
    Nat → Nat → Nat → Option (List (List α × Nat))
  | 0, _, _ => none
  | fuel + 1, round, cursor =>
      let page := (above key cursor (views round)).take limit
      let next := nextCursor key cursor page
      if page.length = limit then
        (pagesForward key limit views fuel (round + 1) next).map ((page, next) :: ·)
      else some [(page, next)]

theorem le_nextCursor (key : α → Nat) (cursor : Nat) (page : List α) :
    cursor ≤ nextCursor key cursor page := by
  induction page generalizing cursor with
  | nil => exact Nat.le_refl _
  | cons a rest ih =>
      have := ih (max cursor (key a))
      simp only [nextCursor, List.foldl_cons] at this ⊢
      omega

theorem key_le_nextCursor (cursor : Nat) {page : List α} {a : α} (h : a ∈ page) :
    key a ≤ nextCursor key cursor page := by
  induction page generalizing cursor with
  | nil => exact absurd h List.not_mem_nil
  | cons b rest ih =>
      rcases List.mem_cons.mp h with rfl | hMem
      · have := le_nextCursor key (max cursor (key a)) rest
        simp only [nextCursor, List.foldl_cons] at this ⊢
        omega
      · exact ih (max cursor (key b)) hMem

/-- The cursor is below what is above the old cursor and above the page. -/
theorem nextCursor_lt {cursor bound : Nat} {page : List α} (hCursor : cursor < bound)
    (hPage : ∀ a ∈ page, key a < bound) : nextCursor key cursor page < bound := by
  induction page generalizing cursor with
  | nil => exact hCursor
  | cons a rest ih =>
      have hFirst := hPage a List.mem_cons_self
      apply ih
      · exact Nat.max_lt.mpr ⟨hCursor, hFirst⟩
      · exact fun b hb => hPage b (List.mem_cons_of_mem _ hb)

/-- The cursor is the old one or the key of an item of the page. -/
theorem nextCursor_cases (key : α → Nat) (cursor : Nat) (page : List α) :
    nextCursor key cursor page = cursor ∨
      ∃ a ∈ page, nextCursor key cursor page = key a := by
  induction page generalizing cursor with
  | nil => exact Or.inl rfl
  | cons a rest ih =>
      rcases ih (max cursor (key a)) with hOld | ⟨b, hb, hKey⟩
      · rcases Nat.le_total (key a) cursor with hLe | hLe
        · exact Or.inl (hOld.trans (Nat.max_eq_left hLe))
        · exact Or.inr ⟨a, List.mem_cons_self, hOld.trans (Nat.max_eq_right hLe)⟩
      · exact Or.inr ⟨b, List.mem_cons_of_mem _ hb, hKey⟩

theorem above_above {cursor next : Nat} (h : cursor ≤ next) (items : List α) :
    above key next items = above key next (above key cursor items) := by
  unfold above
  rw [List.filter_filter]
  apply List.filter_congr
  intro a _
  by_cases ha : next < key a
  · have : cursor < key a := by omega
    simp [ha, this]
  · simp [ha]

/-- A page and what is above its cursor make up what is above the old one. -/
theorem above_split {cursor : Nat} {page rest items : List α} (hSorted : Ascending key items)
    (hSplit : above key cursor items = page ++ rest) :
    above key (nextCursor key cursor page) items = rest := by
  have hAscending : Ascending key (page ++ rest) := by
    rw [← hSplit]
    exact hSorted.filter _
  obtain ⟨-, -, hCross⟩ := List.pairwise_append.mp hAscending
  have hPage : ∀ a ∈ page, ¬decide (nextCursor key cursor page < key a) = true := by
    intro a ha
    rw [decide_eq_true_eq, Nat.not_lt]
    exact key_le_nextCursor cursor ha
  have hRest : ∀ a ∈ rest, decide (nextCursor key cursor page < key a) = true := by
    intro a ha
    have hMem : a ∈ above key cursor items := hSplit ▸ List.mem_append_right _ ha
    have hCursor : cursor < key a := of_decide_eq_true (List.mem_filter.mp hMem).2
    exact decide_eq_true (nextCursor_lt hCursor fun b hb => hCross b hb a ha)
  rw [above_above (le_nextCursor key cursor page), hSplit]
  unfold above
  rw [List.filter_append, List.filter_eq_nil_iff.mpr hPage, List.filter_eq_self.mpr hRest,
    List.nil_append]

/-- An item above the cursor behind a page is left exactly where the page does not take
them all. -/
theorem exists_above_nextCursor_iff (limit cursor : Nat) {items : List α}
    (hSorted : Ascending key items) :
    (∃ a ∈ items, nextCursor key cursor ((above key cursor items).take limit) < key a) ↔
      limit < (above key cursor items).length := by
  have hRest := above_split hSorted (List.take_append_drop limit (above key cursor items)).symm
  constructor
  · rintro ⟨a, ha, hAbove⟩
    have hMem : a ∈ (above key cursor items).drop limit := by
      rw [← hRest]
      exact List.mem_filter.mpr ⟨ha, decide_eq_true hAbove⟩
    have hPos := List.length_pos_of_mem hMem
    rw [List.length_drop] at hPos
    omega
  · intro hMore
    have hPos : 0 < ((above key cursor items).drop limit).length := by
      rw [List.length_drop]
      omega
    obtain ⟨a, ha⟩ := List.exists_mem_of_length_pos hPos
    rw [← hRest] at ha
    obtain ⟨hMem, hAbove⟩ := List.mem_filter.mp ha
    exact ⟨a, hMem, of_decide_eq_true hAbove⟩

theorem prefix_of_le {views : Nat → List α} (hGrow : ∀ r, views r <+: views (r + 1)) {r : Nat} :
    ∀ n, views r <+: views (r + n) := by
  intro n
  induction n with
  | zero => exact List.prefix_refl _
  | succ n ih => exact ih.trans (hGrow (r + n))

/-- The last cursor of a reading that began at `cursor`. -/
def finalCursor (cursor : Nat) (rounds : List (List α × Nat)) : Nat :=
  (rounds.getLast?.map Prod.snd).getD cursor

theorem finalCursor_cons (cursor : Nat) (round : List α × Nat) (rounds : List (List α × Nat)) :
    finalCursor cursor (round :: rounds) = finalCursor round.2 rounds := by
  cases rounds with
  | nil => rfl
  | cons second rest =>
      unfold finalCursor
      rw [List.getLast?_cons_cons, List.getLast?_cons]
      rfl

/-- Reading forward returns everything above the cursor that the last view has,
in order, and nothing is left above the last cursor.  The cursor never
decreases. -/
theorem pagesForward_complete {limit : Nat} {views : Nat → List α}
    (hGrow : ∀ r, views r <+: views (r + 1)) (hSorted : ∀ r, Ascending key (views r)) :
    ∀ (fuel round cursor : Nat) (rounds : List (List α × Nat)),
      pagesForward key limit views fuel round cursor = some rounds →
        ∃ last, rounds.length = last + 1 ∧
          (rounds.map Prod.fst).flatten = above key cursor (views (round + last)) ∧
          above key (finalCursor cursor rounds) (views (round + last)) = [] ∧
          (cursor :: rounds.map Prod.snd).Pairwise (· ≤ ·) := by
  intro fuel
  induction fuel with
  | zero =>
      intro round cursor rounds hRounds
      contradiction
  | succ fuel ih =>
      intro round cursor rounds hRounds
      rw [pagesForward] at hRounds
      generalize hPage : (above key cursor (views round)).take limit = page at hRounds
      obtain ⟨rest, hAbove⟩ : ∃ rest, above key cursor (views round) = page ++ rest :=
        ⟨(above key cursor (views round)).drop limit, by rw [← hPage, List.take_append_drop]⟩
      have hLe := le_nextCursor key cursor page
      split at hRounds
      · obtain ⟨others, hOthers, rfl⟩ := Option.map_eq_some_iff.mp hRounds
        obtain ⟨last, hLast, hFlat, hNone, hChain⟩ := ih _ _ _ hOthers
        -- the last view continues this one, and what is new is above the page
        obtain ⟨ext, hExt⟩ := prefix_of_le hGrow (r := round) (1 + last)
        have hView : above key cursor (views (round + (1 + last))) =
            page ++ (rest ++ above key cursor ext) := by
          rw [← hExt, above, List.filter_append]
          show above key cursor (views round) ++ above key cursor ext = _
          rw [hAbove, List.append_assoc]
        have hRest := above_split (hSorted (round + (1 + last))) hView
        have hIndex : round + 1 + last = round + (1 + last) := by omega
        rw [hIndex] at hFlat hNone
        refine ⟨1 + last, ?_, ?_, ?_, ?_⟩
        · rw [List.length_cons, hLast]
          omega
        · rw [List.map_cons, List.flatten_cons, hFlat, hRest, hView]
        · rw [finalCursor_cons]
          exact hNone
        · rw [List.map_cons, List.pairwise_cons]
          refine ⟨?_, hChain⟩
          intro later hMem
          rcases List.mem_cons.mp hMem with rfl | hLater
          · exact hLe
          · exact Nat.le_trans hLe (List.rel_of_pairwise_cons hChain hLater)
      · rename_i hShort
        have hAll : above key cursor (views round) = page := by
          rw [← hPage, List.length_take] at hShort
          rw [← hPage, List.take_of_length_le]
          omega
        have hNil : rest = [] := by simpa [hAll] using hAbove
        rw [hNil] at hAbove
        rw [← Option.some.inj hRounds]
        refine ⟨0, rfl, ?_, ?_, ?_⟩
        · simp [hAbove]
        · exact above_split (hSorted round) hAbove
        · simpa using hLe

/-- The items up to a cursor. -/
def upTo (key : α → Nat) (cursor : Nat) (items : List α) : List α :=
  items.filter fun a => decide (key a ≤ cursor)

theorem length_upTo_add_above (key : α → Nat) (cursor : Nat) (items : List α) :
    (upTo key cursor items).length + (above key cursor items).length = items.length := by
  have hNot : above key cursor items = items.filter fun a => !decide (key a ≤ cursor) := by
    unfold above
    apply List.filter_congr
    intro a _
    rw [← decide_not]
    exact decide_eq_decide.mpr (by omega)
  rw [hNot, upTo]
  exact (List.length_eq_length_filter_add _).symm

/-- A full page puts at least one more item up to the cursor. -/
theorem length_upTo_lt {limit cursor : Nat} {view next : List α} (hLimit : 1 ≤ limit)
    (hGrow : view <+: next) (hSorted : Ascending key view)
    (hFull : ((above key cursor view).take limit).length = limit) :
    (upTo key cursor view).length <
      (upTo key (nextCursor key cursor ((above key cursor view).take limit)) next).length := by
  obtain ⟨ext, rfl⟩ := hGrow
  have hRest := above_split hSorted (List.take_append_drop limit (above key cursor view)).symm
  have hBefore := length_upTo_add_above key cursor view
  have hAfter := length_upTo_add_above key
    (nextCursor key cursor ((above key cursor view).take limit)) view
  rw [hRest, List.length_drop] at hAfter
  rw [List.length_take] at hFull
  have hMore : (upTo key (nextCursor key cursor ((above key cursor view).take limit))
      (view ++ ext)).length ≥
      (upTo key (nextCursor key cursor ((above key cursor view).take limit)) view).length := by
    rw [upTo, upTo, List.filter_append, List.length_append]
    omega
  omega

/-- Reading forward ends when the views stay bounded. -/
theorem pagesForward_ends {limit bound : Nat} {views : Nat → List α} (hLimit : 1 ≤ limit)
    (hGrow : ∀ r, views r <+: views (r + 1)) (hSorted : ∀ r, Ascending key (views r))
    (hBound : ∀ r, (views r).length ≤ bound) :
    ∀ fuel round cursor, bound < (upTo key cursor (views round)).length + fuel →
      ∃ rounds, pagesForward key limit views fuel round cursor = some rounds := by
  intro fuel
  induction fuel with
  | zero =>
      intro round cursor hFuel
      have := length_upTo_add_above key cursor (views round)
      have := hBound round
      omega
  | succ fuel ih =>
      intro round cursor hFuel
      rw [pagesForward]
      split
      · rename_i hFull
        have hMore := length_upTo_lt hLimit (hGrow round) (hSorted round) hFull
        have hFuel' : bound < (upTo key (nextCursor key cursor
            ((above key cursor (views round)).take limit)) (views (round + 1))).length + fuel := by
          omega
        obtain ⟨rounds, hRounds⟩ := ih (round + 1) _ hFuel'
        rw [hRounds]
        exact ⟨_, rfl⟩
      · exact ⟨_, rfl⟩

end CppChat.Verified.CursorPaging
