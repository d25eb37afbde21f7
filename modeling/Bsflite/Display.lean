import Bsflite.CString
import Bsflite.Presence

/-!
# Bsflite.Display

`display_buddylist_sorted` of `out.c`: the buddies online, in four groups and
in rows.

* `displayPass_eq` — one pass over the list prints the rows of one group.
* `display_complete` — in every reachable state every buddy is printed once.
-/

namespace Bsflite

open LinkedList Keyed

/-! ## printing -/

/-- What one pass over the list is about: `run` 0 to 3. -/
inductive BuddyGroup where
  | online
  | idle
  | away
  | gone
deriving DecidableEq, Repr

namespace BuddyGroup

/-- The passes, in order. -/
def all : List BuddyGroup := [online, idle, away, gone]

/-- Does a pass print a buddy? -/
def has : BuddyGroup → Buddy → Bool
  | online, trav => !trav.idle && !trav.away
  | idle, trav => trav.idle && !trav.away
  | away, trav => !trav.idle && trav.away
  | gone, trav => trav.idle && trav.away

/-- `BUDDYLIST_ONLINE`, `BUDDYLIST_IDLE`, `BUDDYLIST_AWAY`, `BUDDYLIST_GONE` -/
def mark : BuddyGroup → Str
  | online => ascii "[o]"
  | idle => ascii "[i]"
  | away => ascii "[a]"
  | gone => ascii "[g]"

end BuddyGroup

/-- The colours of the list; `none` is `set_color(0)`. -/
inductive ListColor where
  | none
  | echostr
  | group (run : BuddyGroup)
deriving DecidableEq, Repr

/-- What reaches the terminal: a byte, or a change of colour. -/
inductive ListShown where
  | byte (c : UInt8)
  | color (c : ListColor)
deriving DecidableEq, Repr

/-- `printf("%s", s)` -/
def listText (s : Str) : List ListShown := s.map .byte

/-- `%-16s` -/
def cellName (s : Str) : Str := s ++ List.replicate (16 - s.length) 32

/-- `sncopy`: the name, or the front of it and three dots. -/
def sncopy (formattedsn : Str) : Except Fault (List UInt8) := do
  let buf ← storeN (List.replicate 17 0) 0 (List.replicate 17 0)
  let len ← bufLen (terminated formattedsn)
  if 16 < len then
    let front ← peekN (terminated formattedsn) 0 13
    let buf ← storeN buf 0 front
    strcat buf (ascii "...")
  else
    let text ← peekN (terminated formattedsn) 0 len
    storeN buf 0 text

/-- The inner loop, over the nodes: what it prints, and `col` behind it. -/
def displayPass (numcols : Int) (run : BuddyGroup) :
    Int → List Buddy → Except Fault (List ListShown × Int)
  | col, [] => return ([], col)
  | col, trav :: rest => do
    let shown := [.color .echostr]
    if run.has trav then
      let shown := shown ++ (if col = 1 then listText (ascii "  ") else []) ++
        listText (ascii " " ++ run.mark) ++ [.color .none]
      let buf ← sncopy trav.formattedsn
      let name ← strAt buf 0
      let shown := shown ++ [.color (.group run)]
      if col < numcols then
        let shown := shown ++ listText (ascii " " ++ cellName name ++ ascii "  ") ++ [.color .none]
        let (more, col) ← displayPass numcols run (col + 1) rest
        return (shown ++ more, col)
      else
        let shown := shown ++ listText (ascii " " ++ name) ++ [.color .none] ++ listText [10] ++
          [.color .none]
        let (more, col) ← displayPass numcols run 1 rest
        return (shown ++ more, col)
    else
      let (more, col) ← displayPass numcols run col rest
      return (shown ++ more, col)

/-- The outer loop, over the passes left. -/
def displayRuns (numcols : Int) (bs : List Buddy) :
    Int → List BuddyGroup → Except Fault (List ListShown)
  | _, [] => return [.color .none]
  | col, run :: runs => do
    let (shown, col) ← displayPass numcols run col bs
    let more ← displayRuns numcols bs 1 runs
    return shown ++ (if col ≠ 1 then listText [10] else []) ++ more

/-- How many columns a screen has. -/
def numcols (screenCols : Int) : Int :=
  let numcols := screenCols.tdiv 24 - 1
  if numcols ≤ 0 then 1 else numcols

/-- `display_buddylist_sorted` -/
def displayBuddylistSorted (screenCols : Int) (c : Client) : Except Fault (List ListShown) :=
  match c.heap.values (c.heap.brk + 1) c.buddylist with
  | none => .error .oob
  | some bs => displayRuns (numcols screenCols) bs 1 BuddyGroup.all

/-! ## what is to be seen -/

/-- The text on the terminal. -/
def visible (shown : List ListShown) : Str :=
  shown.filterMap fun
    | .byte c => some c
    | .color _ => none

@[simp] theorem visible_nil : visible [] = [] := rfl

@[simp] theorem visible_append (xs ys : List ListShown) :
    visible (xs ++ ys) = visible xs ++ visible ys :=
  List.filterMap_append

@[simp] theorem visible_color (c : ListColor) (xs : List ListShown) :
    visible (.color c :: xs) = visible xs := rfl

@[simp] theorem visible_listText (s : Str) : visible (listText s) = s := by
  simp [visible, listText, List.filterMap_map]

/-- A name as it is shown: in full, or its first 13 bytes and three dots. -/
def shownName (formattedsn : Str) : Str :=
  if formattedsn.length ≤ 16 then formattedsn else formattedsn.take 13 ++ ascii "..."

/-- The cells of a row, with `left` columns left. -/
def cells (run : BuddyGroup) : Nat → List Buddy → Str
  | _, [] => []
  | left, b :: rest =>
    ascii " " ++ run.mark ++ ascii " " ++
      (if 1 < left then cellName (shownName b.formattedsn) ++ ascii "  "
        else shownName b.formattedsn) ++
      cells run (left - 1) rest

/-- A row. -/
def rowText (n : Nat) (run : BuddyGroup) (row : List Buddy) : Str :=
  ascii "  " ++ cells run n row ++ [10]

/-- `sncopy` holds the name as it is shown. -/
theorem sncopy_eq {formattedsn : Str} (hnul : 0 ∉ formattedsn) :
    ∃ buf, sncopy formattedsn = .ok buf ∧ strAt buf 0 = .ok (shownName formattedsn) := by
  have hzeros := storeN_zeros (List.length_replicate (n := 17) (a := (0 : UInt8)))
  have hlen : bufLen (terminated formattedsn) = .ok formattedsn.length :=
    HoldsStr.bufLen_eq ⟨hnul, List.prefix_rfl⟩
  rw [sncopy, hzeros, ok_bind, hlen, ok_bind, shownName]
  by_cases hlong : 16 < formattedsn.length
  · have hfront : 0 ∉ formattedsn.take 13 := fun h => hnul (List.mem_of_mem_take h)
    have htake : (formattedsn.take 13).length = 13 := by
      rw [List.length_take]
      omega
    obtain ⟨buf, hstore, hheld, hbuf⟩ := storeN_cleared hfront (n := 17) (by omega)
    have hdots : 0 ∉ ascii "..." := by decide +kernel
    obtain ⟨buf', hcat, hheld', -⟩ := hheld.strcat_eq hdots (by rw [htake, hbuf]; decide +kernel)
    refine ⟨buf', ?_, ?_⟩
    · rw [if_pos hlong, peekN_terminated (by omega), ok_bind, List.drop_zero, hstore, ok_bind, hcat]
    · rw [if_neg (by omega)]
      exact HoldsStr.strAt_eq (i := 0) hheld'
  · obtain ⟨buf, hstore, hheld, -⟩ := storeN_cleared hnul (n := 17) (by omega)
    refine ⟨buf, ?_, ?_⟩
    · rw [if_neg hlong, peekN_terminated (by omega), ok_bind, List.drop_zero, List.take_length,
        hstore]
    · rw [if_pos (by omega)]
      exact HoldsStr.strAt_eq (i := 0) hheld

section
variable {run : BuddyGroup} {b : Buddy} {bs : List Buddy} {numcols col col' : Int}
  {shown : List ListShown}

/-- A buddy of another group is passed over. -/
theorem displayPass_other (hhas : ¬ run.has b = true)
    (hrest : displayPass numcols run col bs = .ok (shown, col')) :
    ∃ shown', displayPass numcols run col (b :: bs) = .ok (shown', col') ∧
      visible shown' = visible shown := by
  refine ⟨.color .echostr :: shown, ?_, rfl⟩
  rw [displayPass, if_neg hhas, hrest]
  rfl

/-- A buddy of the group, and more columns behind it. -/
theorem displayPass_more (hhas : run.has b = true) (hnul : 0 ∉ b.formattedsn)
    (hcol : col < numcols) (hrest : displayPass numcols run (col + 1) bs = .ok (shown, col')) :
    ∃ shown', displayPass numcols run col (b :: bs) = .ok (shown', col') ∧
      visible shown' = (if col = 1 then ascii "  " else []) ++ ascii " " ++ run.mark ++ ascii " " ++
        cellName (shownName b.formattedsn) ++ ascii "  " ++ visible shown := by
  obtain ⟨buf, hbuf, hname⟩ := sncopy_eq hnul
  rw [displayPass, if_pos hhas, hbuf, ok_bind, hname, ok_bind, if_pos hcol, hrest]
  refine ⟨_, rfl, ?_⟩
  by_cases h1 : col = 1
  · simp [h1]
  · simp [h1]

/-- A buddy of the group in the last column. -/
theorem displayPass_last (hhas : run.has b = true) (hnul : 0 ∉ b.formattedsn)
    (hcol : ¬ col < numcols) (hrest : displayPass numcols run 1 bs = .ok (shown, col')) :
    ∃ shown', displayPass numcols run col (b :: bs) = .ok (shown', col') ∧
      visible shown' = (if col = 1 then ascii "  " else []) ++ ascii " " ++ run.mark ++ ascii " " ++
        shownName b.formattedsn ++ [10] ++ visible shown := by
  obtain ⟨buf, hbuf, hname⟩ := sncopy_eq hnul
  rw [displayPass, if_pos hhas, hbuf, ok_bind, hname, ok_bind, if_neg hcol, hrest]
  refine ⟨_, rfl, ?_⟩
  by_cases h1 : col = 1
  · simp [h1]
  · simp [h1]

end

/-- What a pass over `bs` that begins at column `c` prints: the buddies of
`row` go on the row that is open there, the others on rows behind it. -/
structure Pass (run : BuddyGroup) (n c : Nat) (bs : List Buddy) (shown : List ListShown)
    (col : Int) (row : List Buddy) (rows : List (List Buddy)) : Prop where
  runs : displayPass n run c bs = .ok (shown, col)
  listed : row ++ rows.flatten = bs.filter run.has
  closed : c = 1 → row = []
  fits : row.length ≤ n + 1 - c
  behind : ∀ row ∈ rows, row ≠ [] ∧ row.length ≤ n
  text : visible shown ++ (if col ≠ 1 then [10] else []) =
    (if c = 1 then [] else cells run (n + 1 - c) row ++ [10]) ++ rows.flatMap (rowText n run)

section
variable {run : BuddyGroup} {n c : Nat} {b : Buddy} {bs : List Buddy} {shown : List ListShown}
  {col : Int} {row : List Buddy} {rows : List (List Buddy)}

/-- The end of the list. -/
theorem Pass.done (run : BuddyGroup) (n c : Nat) : Pass run n c [] [] c [] [] where
  runs := rfl
  listed := rfl
  closed _ := rfl
  fits := Nat.zero_le _
  behind := by simp
  text := by
    by_cases h1 : c = 1
    · simp [h1]
    · have h1' : (c : Int) ≠ 1 := by omega
      simp [h1, h1', cells]

/-- A buddy of another group. -/
theorem Pass.other (hhas : ¬ run.has b = true) (h : Pass run n c bs shown col row rows) :
    ∃ shown', Pass run n c (b :: bs) shown' col row rows := by
  obtain ⟨shown', hrun, hvisible⟩ := displayPass_other hhas h.runs
  refine ⟨shown', { h with runs := hrun, listed := ?_, text := ?_ }⟩
  · rw [h.listed, List.filter_cons_of_neg hhas]
  · rw [hvisible, h.text]

/-- A buddy of the group, and more columns behind it. -/
theorem Pass.more (hhas : run.has b = true) (hnul : 0 ∉ b.formattedsn) (hc : 1 ≤ c) (hcn : c < n)
    (h : Pass run n (c + 1) bs shown col row rows) :
    ∃ shown' row' rows', Pass run n c (b :: bs) shown' col row' rows' := by
  obtain ⟨shown', hrun, hvisible⟩ := displayPass_more hhas hnul (Int.ofNat_lt.mpr hcn)
    (by simpa using h.runs)
  have hfits := h.fits
  have htext := h.text
  rw [if_neg (show c + 1 ≠ 1 by omega), Nat.add_sub_add_right, List.append_assoc] at htext
  by_cases h1 : c = 1
  · -- the first one on a row
    subst h1
    refine ⟨shown', [], (b :: row) :: rows, hrun, ?_, fun _ => rfl, Nat.zero_le _, ?_, ?_⟩
    · simp [hhas, ← h.listed]
    · rw [List.forall_mem_cons]
      exact ⟨⟨List.cons_ne_nil b row, by rw [List.length_cons]; omega⟩, h.behind⟩
    · simpa [hvisible, rowText, cells, hcn] using htext
  · refine ⟨shown', b :: row, rows, hrun, ?_, fun hone => absurd hone h1, ?_, h.behind, ?_⟩
    · simp [hhas, ← h.listed]
    · rw [List.length_cons]
      omega
    · have hcol : (c : Int) = 1 ↔ c = 1 := by omega
      have hleft : 1 < n + 1 - c := by omega
      have hnext : n + 1 - c - 1 = n - c := by omega
      simpa [hvisible, cells, h1, hcol, hleft, hnext] using htext

/-- A buddy of the group in the last column. -/
theorem Pass.last (hhas : run.has b = true) (hnul : 0 ∉ b.formattedsn) (hn : 1 ≤ n)
    (h : Pass run n 1 bs shown col row rows) :
    ∃ shown' row' rows', Pass run n n (b :: bs) shown' col row' rows' := by
  obtain ⟨shown', hrun, hvisible⟩ := displayPass_last hhas hnul (Int.lt_irrefl n) h.runs
  obtain rfl := h.closed rfl
  have htext := h.text
  have hlisted := h.listed
  rw [if_pos rfl, List.nil_append] at htext
  rw [List.nil_append] at hlisted
  by_cases h1 : n = 1
  · subst h1
    refine ⟨shown', [], [b] :: rows, hrun, ?_, fun _ => rfl, Nat.zero_le _, ?_, ?_⟩
    · simp [hhas, hlisted]
    · rw [List.forall_mem_cons]
      exact ⟨⟨List.cons_ne_nil b [], Nat.le_refl 1⟩, h.behind⟩
    · simpa [hvisible, rowText, cells] using htext
  · refine ⟨shown', [b], rows, hrun, ?_, fun hone => absurd hone h1, ?_, h.behind, ?_⟩
    · simp [hhas, hlisted]
    · simp
    · have hcol : (n : Int) = 1 ↔ n = 1 := by omega
      simpa [hvisible, cells, h1, hcol] using htext

end

/-- **One pass**, from any column. -/
theorem displayPass_eq (run : BuddyGroup) {n : Nat} {bs : List Buddy}
    (hnames : ∀ b ∈ bs, 0 ∉ b.formattedsn) :
    ∀ c : Nat, 1 ≤ c → c ≤ n → ∃ (shown : List ListShown) (col : Int) (row : List Buddy)
      (rows : List (List Buddy)), Pass run n c bs shown col row rows := by
  induction bs with
  | nil => exact fun c _ _ => ⟨[], c, [], [], .done run n c⟩
  | cons b bs ih =>
      intro c hc hcn
      rw [List.forall_mem_cons] at hnames
      obtain ⟨hnul, hnames⟩ := hnames
      by_cases hhas : run.has b = true
      · by_cases hlast : c < n
        · obtain ⟨shown, col, row, rows, hrest⟩ := ih hnames (c + 1) (by omega) hlast
          obtain ⟨shown', row', rows', hpass⟩ := hrest.more hhas hnul hc hlast
          exact ⟨shown', col, row', rows', hpass⟩
        · obtain rfl : c = n := by omega
          obtain ⟨shown, col, row, rows, hrest⟩ := ih hnames 1 (Nat.le_refl 1) hc
          obtain ⟨shown', row', rows', hpass⟩ := hrest.last hhas hnul hc
          exact ⟨shown', col, row', rows', hpass⟩
      · obtain ⟨shown, col, row, rows, hrest⟩ := ih hnames c hc hcn
        obtain ⟨shown', hpass⟩ := hrest.other hhas
        exact ⟨shown', col, row, rows, hpass⟩

/-- A pass that begins at the first column. -/
theorem displayPass_rows (run : BuddyGroup) {n : Nat} (hn : 1 ≤ n) {bs : List Buddy}
    (hnames : ∀ b ∈ bs, 0 ∉ b.formattedsn) :
    ∃ (shown : List ListShown) (col : Int) (rows : List (List Buddy)),
      displayPass n run 1 bs = .ok (shown, col) ∧ rows.flatten = bs.filter run.has ∧
      (∀ row ∈ rows, row ≠ [] ∧ row.length ≤ n) ∧
      visible shown ++ (if col ≠ 1 then [10] else []) = rows.flatMap (rowText n run) := by
  obtain ⟨shown, col, row, rows, h⟩ := displayPass_eq run hnames 1 (Nat.le_refl 1) hn
  obtain rfl := h.closed rfl
  exact ⟨shown, col, rows, h.runs, h.listed, h.behind, h.text⟩

/-- The rows on the terminal, each with its group. -/
structure Rows (n : Nat) (runs : List BuddyGroup) (bs : List Buddy)
    (rows : List (BuddyGroup × List Buddy)) : Prop where
  /-- group after group, and within a group as on the list -/
  listed : rows.flatMap Prod.snd = runs.flatMap fun run => bs.filter run.has
  /-- a row has one group, and no more buddies than columns -/
  row : ∀ r ∈ rows, r.2 ≠ [] ∧ r.2.length ≤ n ∧ ∀ b ∈ r.2, r.1.has b = true

/-- The passes, one after the other. -/
theorem displayRuns_eq {n : Nat} (hn : 1 ≤ n) {bs : List Buddy}
    (hnames : ∀ b ∈ bs, 0 ∉ b.formattedsn) (runs : List BuddyGroup) :
    ∃ shown rows, displayRuns n bs 1 runs = .ok shown ∧ Rows n runs bs rows ∧
      visible shown = rows.flatMap fun r => rowText n r.1 r.2 := by
  induction runs with
  | nil => exact ⟨[.color .none], [], rfl, ⟨rfl, by simp⟩, rfl⟩
  | cons run runs ih =>
      obtain ⟨more, rest, hmore, ⟨hlisted, hrest⟩, hvisible⟩ := ih
      obtain ⟨shown, col, rows, hrun, hflat, hrows, htext⟩ := displayPass_rows run hn hnames
      refine ⟨shown ++ (if col ≠ 1 then listText [10] else []) ++ more,
        rows.map (fun row => (run, row)) ++ rest, ?_, ⟨?_, ?_⟩, ?_⟩
      · rw [displayRuns, hrun, ok_bind]
        simp only [hmore]
        rfl
      · simp [hlisted, ← hflat, List.flatMap_map]
      · intro r hr
        rcases List.mem_append.mp hr with hr | hr
        · obtain ⟨row, hrow, rfl⟩ := List.mem_map.mp hr
          refine ⟨(hrows row hrow).1, (hrows row hrow).2, fun b hb => ?_⟩
          have hmem : b ∈ bs.filter run.has := hflat ▸ List.mem_flatten.mpr ⟨row, hrow, hb⟩
          exact (List.mem_filter.mp hmem).2
        · exact hrest r hr
      · have hline : visible (if col ≠ 1 then listText [10] else []) =
            if col ≠ 1 then [10] else [] := by
          split <;> simp
        rw [visible_append, visible_append, hline, htext, hvisible, List.flatMap_append,
          List.flatMap_map]

/-- Every buddy is in one group. -/
theorem groups_perm (bs : List Buddy) :
    (BuddyGroup.all.flatMap fun run => bs.filter run.has).Perm bs := by
  have hidle (l : List Buddy) :
      (l.filter (fun b => !b.idle) ++ l.filter fun b => b.idle).Perm l := by
    simpa using List.filter_append_perm (fun b : Buddy => !b.idle) l
  have haway : (bs.filter (fun b => !b.away) ++ bs.filter fun b => b.away).Perm bs := by
    simpa using List.filter_append_perm (fun b : Buddy => !b.away) bs
  have hsplit := ((hidle (bs.filter fun b => !b.away)).append
    (hidle (bs.filter fun b => b.away))).trans haway
  simp only [List.filter_filter, List.append_assoc] at hsplit
  simp only [BuddyGroup.all, List.flatMap_cons, List.flatMap_nil, List.append_nil]
  exact hsplit

/-- The columns, counted. -/
theorem numcols_eq (screenCols : Int) :
    numcols screenCols = ((max 1 (screenCols.tdiv 24 - 1)).toNat : Int) := by
  simp only [numcols]
  split <;> omega

/-- **The display is complete** in every state that a run reaches: it prints
the buddies of the list, each once, group after group, and in each group by
ascending name. -/
theorem display_complete [Host] (libotr : Libotr) (others : Callback → World Client → World Client)
    {w0 w : World Client} (h0 : NoBuddies w0) (hrun : PresenceRun libotr others w0 w)
    (hrunning : w.client.crash = none) (screenCols : Int) :
    ∃ xs shown rows, IsList w.client.heap w.client.buddylist xs ∧
      displayBuddylistSorted screenCols w.client = .ok shown ∧
      visible shown = rows.flatMap (fun r =>
        rowText (max 1 (screenCols.tdiv 24 - 1)).toNat r.1 r.2) ∧
      Rows (max 1 (screenCols.tdiv 24 - 1)).toNat BuddyGroup.all (xs.map Prod.snd) rows ∧
      (rows.flatMap Prod.snd).Perm (xs.map Prod.snd) ∧
      ∀ run : BuddyGroup, ((xs.map Prod.snd).filter run.has).Pairwise
        fun b b' => simplifySn b.formattedsn < simplifySn b'.formattedsn := by
  obtain ⟨bs, ⟨ns, online, hintact, hm, rfl⟩, hnamed⟩ :
      ∃ bs, CoupledWith bs w ∧ ∀ b ∈ bs, b.Named := by
    rcases run_named libotr others h0 hrun with hnull | hreached
    · rw [hrunning] at hnull
      cases hnull
    · exact hreached
  obtain ⟨xs, hl, rfl⟩ := hintact.shows
  have hnames : ∀ b ∈ xs.map Prod.snd, b.Named := by
    intro b hb
    obtain ⟨x, hx, rfl⟩ := List.mem_map.mp hb
    have hshown := hnamed x.2.shown (by simpa using ⟨x.1, x.2, hx, rfl⟩)
    exact ⟨hshown.no_nul, hshown.sn⟩
  obtain ⟨shown, rows, hdisplay, hrows, hvisible⟩ := displayRuns_eq
    (show 1 ≤ (max 1 (screenCols.tdiv 24 - 1)).toNat by omega)
    (fun b hb => (hnames b hb).no_nul) BuddyGroup.all
  obtain ⟨last, hseg⟩ := hl.linked
  refine ⟨xs, shown, rows, hl, ?_, hvisible, hrows, ?_, fun run => ?_⟩
  · rw [displayBuddylistSorted, hseg.values_eq (Nat.lt_succ_of_le hl.length_le)]
    simp only [numcols_eq]
    exact hdisplay
  · rw [hrows.listed]
    exact groups_perm _
  · have hsorted : (xs.map Prod.snd).Pairwise fun b b' => b.sn < b'.sn := by
      have hascends := hm.ascends
      rw [Ascends, List.map_map, List.map_map, List.pairwise_map] at hascends
      rwa [List.pairwise_map]
    refine (hsorted.filter _).imp_of_mem ?_
    intro b b' hb hb' hlt
    rwa [← (hnames b (List.mem_filter.mp hb).1).sn, ← (hnames b' (List.mem_filter.mp hb').1).sn]

/-- Carol has left, Bob is idle and Al is away, on a screen of 80 columns. -/
theorem display_complete_bob :
    ∃ (w : World Client) (xs : List (Ptr × Buddy)) (shown : List ListShown)
      (rows : List (BuddyGroup × List Buddy)),
      visits = .ok (w, .ok) ∧ IsList w.client.heap w.client.buddylist xs ∧
      displayBuddylistSorted 80 w.client = .ok shown ∧
      visible shown = ascii "   [i] Bob               \n   [a] Al                \n" ∧
      visible shown = (rows.flatMap fun r => rowText 2 r.1 r.2) ∧
      Rows 2 BuddyGroup.all (xs.map Prod.snd) rows ∧
      (rows.flatMap Prod.snd).Perm (xs.map Prod.snd) := by
  obtain ⟨w, hvisits, hrunning, hstart, hrun⟩ := visits_run
  obtain ⟨xs, shown, rows, hl, hdisplay, hvisible, hrows, hperm, -⟩ :=
    @display_complete littleEndianHost quietLibotr (fun _ w => w) _ _ hstart hrun hrunning 80
  obtain ⟨w', shown', hvisits', hdisplay', hvisible'⟩ : ∃ w' shown', visits = .ok (w', .ok) ∧
      displayBuddylistSorted 80 w'.client = .ok shown' ∧
      visible shown' = ascii "   [i] Bob               \n   [a] Al                \n" :=
    ⟨_, _, rfl, rfl, by decide +kernel⟩
  obtain rfl : w' = w := congrArg Prod.fst (Except.ok.inj (hvisits'.symm.trans hvisits))
  obtain rfl : shown' = shown := Except.ok.inj (hdisplay'.symm.trans hdisplay)
  exact ⟨w', xs, shown', rows, hvisits, hl, hdisplay, hvisible', hvisible, hrows, hperm⟩

example : rowText 2 .idle [⟨ascii "bob", ascii "Bob", true, false, 0, none, 12⟩,
    ⟨ascii "alongername12345", ascii "A Longer Name 12345", true, false, 0, none, 10⟩] =
    ascii "   [i] Bob                [i] A Longer Name...\n" := by decide +kernel

end Bsflite
