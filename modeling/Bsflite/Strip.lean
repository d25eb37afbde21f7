import Bsflite.CString
import Bsflite.Text

/-!
# Bsflite.Strip

`strip_html` with its memory: the message and its terminator, the block
`temp` of `strlen(message) + 1` bytes, the index `x` and the count of the
bytes written.  A read or a write outside its block is a `Fault`, and so is a
loop that does not end.

* `stripStep` — one iteration.
* `stripStep_advances` — it stays inside, moves on, and writes no more than it
  reads over: `count ≤ x` is what makes the link branch safe.
* `stripHtmlBlock_eq` — the whole run leaves `stripHtml message` and a
  terminator.
-/

namespace Bsflite

/-! ## the loop -/

/-- The variables of `strip_html`. -/
structure Strip where
  x : Nat
  count : Nat
  inhtml : Bool
  temp : List UInt8

/-- `temp[count] = c; count++` -/
def Strip.emit (s : Strip) (c : UInt8) : Except Fault Strip := do
  let temp ← storeN s.temp s.count [c]
  return { s with temp := temp, count := s.count + 1 }

/-- The inner loop of the link branch, for the bytes left: the index of the
next quote. -/
def findQuote (mem : List UInt8) : Nat → Nat → Except Fault (Option Nat)
  | 0, _ => return none
  | n + 1, y => do
    let c ← peek mem y
    if c = 34 then return some y else findQuote mem n (y + 1)

/-- The copies of the link branch: the URL in brackets, and a blank. -/
def copyLink (temp : List UInt8) (count : Nat) (url : Str) : Except Fault (List UInt8) := do
  let temp ← storeN temp count [91]
  let temp ← storeN temp (count + 1) url
  storeN temp (count + 1 + url.length) [93, 32]

/-- The entities, in the order of the tests. -/
def entities : List (Str × UInt8) :=
  [(ascii "&amp;", 38), (ascii "&quot;", 34), (ascii "&nbsp;", 32), (ascii "&lt;", 60),
    (ascii "&gt;", 62)]

section
variable (message : Str)

/-- The link branch. -/
def stripLinkAt (s : Strip) : Except Fault Strip := do
  if s.x + 10 < message.length then
    if ← comparesAt tolower (terminated message) s.x (ascii "<a href=\"") then
      let xnot := s.x + 9
      match ← findQuote (terminated message) (message.length - xnot) xnot with
      | some y =>
        let url ← peekN (terminated message) xnot (y - xnot)
        let temp ← copyLink s.temp s.count url
        return { s with x := y, count := s.count + (y - xnot + 3), temp := temp }
      | none => return s
    else return s
  else return s

/-- A test for a pattern, made when it still fits into the message. -/
def matchesAt (fold : UInt8 → UInt8) (x : Nat) (pat : Str) : Except Fault Bool :=
  if x + (pat.length - 1) < message.length then comparesAt fold (terminated message) x pat
  else return false

/-- The tests for entities. -/
def findEntity (x : Nat) : List (Str × UInt8) → Except Fault (Option (Str × UInt8))
  | [] => return none
  | (pat, c) :: rest => do
    if ← matchesAt message id x pat then return some (pat, c) else findEntity x rest

/-- One iteration of the loop, with the increment of `x`. -/
def stripStep (s : Strip) : Except Fault Strip := do
  let c ← peek (terminated message) s.x
  if c = 60 ∧ s.inhtml = false then
    let s ← stripLinkAt message s
    if ← matchesAt message tolower s.x (ascii "<br>") then
      let s ← s.emit 10
      return { s with x := s.x + 4 }
    else return { s with inhtml := true, x := s.x + 1 }
  else if s.inhtml then return { s with inhtml := c ≠ 62, x := s.x + 1 }
  else
    match ← (if c = 38 then findEntity message s.x entities else return none) with
    | some (pat, e) =>
      let s ← s.emit e
      return { s with x := s.x + pat.length }
    | none =>
      if c = 10 ∨ c = 13 then return { s with x := s.x + 1 }
      else
        let s ← s.emit c
        return { s with x := s.x + 1 }

/-- The loop. -/
def stripLoop : Nat → Strip → Except Fault Strip
  | 0, _ => .error .hang
  | fuel + 1, s =>
    if s.x < message.length then do
      let s ← stripStep message s
      stripLoop fuel s
    else return s

end

/-! ## one iteration -/

/-- The indices and the block while the loop runs: no more is written than
was read over. -/
structure Strip.Inside (message : Str) (s : Strip) : Prop where
  count_le : s.count ≤ s.x
  x_le : s.x ≤ message.length
  length_temp : s.temp.length = message.length + 1

/-- The text written so far. -/
def Strip.text (s : Strip) : Str := s.temp.take s.count

section
variable {message : Str} {s : Strip}

/-- One byte is appended to the text, and the index moves on. -/
theorem emit_move (hs : s.Inside message) (c : UInt8) {k : Nat} (hk : 0 < k)
    (hfit : s.x + k ≤ message.length) :
    ∃ s', (s.emit c >>= fun s => pure { s with x := s.x + k }) = .ok s' ∧ s'.Inside message ∧
      s'.x = s.x + k ∧ s'.inhtml = s.inhtml ∧ s'.text = s.text ++ [c] := by
  have hcount := hs.count_le
  have htemp := hs.length_temp
  obtain ⟨temp, hstore, hlen, htake⟩ := storeN_take [c]
    (show s.temp.take s.count = s.text from rfl) (by rw [List.length_singleton]; omega)
  refine ⟨⟨s.x + k, s.count + 1, s.inhtml, temp⟩, ?_, ⟨?_, hfit, hlen.trans htemp⟩, rfl, rfl, htake⟩
  · rw [Strip.emit, hstore]
    rfl
  · show s.count + 1 ≤ s.x + k
    omega

/-- The three copies follow each other in the block. -/
theorem copyLink_take {temp : List UInt8} {count : Nat} {pre : Str} (url : Str)
    (h : temp.take count = pre) (hfit : count + (url.length + 3) ≤ temp.length) :
    ∃ temp', copyLink temp count url = .ok temp' ∧ temp'.length = temp.length ∧
      temp'.take (count + (url.length + 3)) = pre ++ (91 :: url ++ [93, 32]) := by
  obtain ⟨temp₁, hstore₁, hlen₁, htake₁⟩ := storeN_take [91] h
    (by rw [List.length_singleton]; omega)
  rw [List.length_singleton] at htake₁
  obtain ⟨temp₂, hstore₂, hlen₂, htake₂⟩ := storeN_take url htake₁ (by omega)
  obtain ⟨temp₃, hstore₃, hlen₃, htake₃⟩ := storeN_take [93, 32] htake₂
    (by simp only [List.length_cons, List.length_nil]; omega)
  refine ⟨temp₃, ?_, hlen₃.trans (hlen₂.trans hlen₁), ?_⟩
  · rw [copyLink, hstore₁, ok_bind, hstore₂, ok_bind, hstore₃]
  · have hsum : count + (url.length + 3) = count + 1 + url.length + [93, 32].length := by
      simp only [List.length_cons, List.length_nil]
      omega
    rw [hsum]
    exact htake₃.trans (by simp)

/-- The first quote behind an index. -/
theorem findQuote_eq {n y : Nat} (h : y + n = message.length) :
    findQuote (terminated message) n y =
      .ok (((message.drop y).findIdx? (· = 34)).map (y + ·)) := by
  induction n generalizing y with
  | zero =>
      have hnil : message.drop y = [] := List.drop_of_length_le (by omega)
      rw [hnil]
      rfl
  | succ n ih =>
      have hdrop : message.drop y = message[y] :: message.drop (y + 1) :=
        List.drop_eq_getElem_cons (by omega)
      rw [findQuote, peek_terminated hdrop, ok_bind, hdrop, List.findIdx?_cons, ih (by omega)]
      by_cases hc : message[y] = 34
      · simp [hc]
        rfl
      · simp only [hc, if_false, decide_false, Bool.false_eq_true]
        rw [Option.map_map]
        congr 2
        funext k
        simp only [Function.comp_apply]
        omega

/-- A test for a pattern is one on the rest of the message. -/
theorem matchesAt_eq (fold : UInt8 → UInt8) {x : Nat} {pat : Str} (hpat : pat ≠ []) :
    matchesAt message fold x pat = .ok (decide (pat.length - 1 < (message.drop x).length ∧
      ((message.drop x).take pat.length).map fold = pat.map fold)) := by
  have hpos := List.length_pos_iff.mpr hpat
  rw [matchesAt, List.length_drop]
  by_cases hfit : x + (pat.length - 1) < message.length
  · rw [if_pos hfit, comparesAt_terminated fold pat (by omega)]
    have hroom : pat.length - 1 < message.length - x := by omega
    simp only [hroom, true_and]
  · rw [if_neg hfit]
    have hroom : ¬ pat.length - 1 < message.length - x := by omega
    simp only [hroom, false_and, decide_false]
    rfl

/-- A URL of `n` bytes, copied from behind the tag, takes less room than was
read over. -/
theorem copyLink_inside (hs : s.Inside message) {n : Nat} (hn : s.x + 9 + n < message.length) :
    ∃ temp, copyLink s.temp s.count ((message.drop (s.x + 9)).take n) = .ok temp ∧
      Strip.Inside message ⟨s.x + 9 + n, s.count + (n + 3), s.inhtml, temp⟩ ∧
      temp.take (s.count + (n + 3)) =
        s.text ++ (91 :: (message.drop (s.x + 9)).take n ++ [93, 32]) := by
  have hcount := hs.count_le
  have htemp := hs.length_temp
  have hlen : ((message.drop (s.x + 9)).take n).length = n := by
    rw [List.length_take, List.length_drop]
    omega
  obtain ⟨temp, hcopy, hlentemp, htake⟩ := copyLink_take ((message.drop (s.x + 9)).take n)
    (show s.temp.take s.count = s.text from rfl) (by rw [hlen]; omega)
  rw [hlen] at htake
  refine ⟨temp, hcopy, ⟨?_, ?_, hlentemp.trans htemp⟩, htake⟩
  · show s.count + (n + 3) ≤ s.x + 9 + n
    omega
  · show s.x + 9 + n ≤ message.length
    omega

/-- The link branch does what `stripLink` does with the rest of the message. -/
theorem stripLinkAt_spec (hs : s.Inside message) (hlt : s.x < message.length) :
    ∃ s', stripLinkAt message s = .ok s' ∧ s'.Inside message ∧ s'.x < message.length ∧
      s.x ≤ s'.x ∧ s'.inhtml = s.inhtml ∧
      s'.text = s.text ++ (stripLink (message.drop s.x)).1 ∧
      message.drop s'.x = (stripLink (message.drop s.x)).2 := by
  have hnone : stripLink (message.drop s.x) = ([], message.drop s.x) →
      s.Inside message ∧ s.x < message.length ∧ s.x ≤ s.x ∧ s.inhtml = s.inhtml ∧
        s.text = s.text ++ (stripLink (message.drop s.x)).1 ∧
        message.drop s.x = (stripLink (message.drop s.x)).2 := by
    intro h
    rw [h]
    exact ⟨hs, hlt, Nat.le_refl _, rfl, (List.append_nil _).symm, rfl⟩
  rw [stripLinkAt]
  by_cases hfit : s.x + 10 < message.length
  · have hroom : 10 < (message.drop s.x).length := by
      rw [List.length_drop]
      omega
    have hcompare := comparesAt_terminated tolower (s := message) (ascii "<a href=\"")
      (i := s.x) (by simp [ascii]; omega)
    rw [if_pos hfit, hcompare, ok_bind]
    by_cases hstart : startsWithCase (ascii "<a href=\"") (message.drop s.x)
    · have hdec := of_decide_eq_true hstart
      rw [if_pos (decide_eq_true hdec)]
      have hrest : s.x + 9 + (message.length - (s.x + 9)) = message.length := by omega
      simp only [findQuote_eq hrest, ok_bind]
      have hdrop : (message.drop s.x).drop 9 = message.drop (s.x + 9) := by rw [List.drop_drop]
      cases hquote : (message.drop (s.x + 9)).findIdx? (· = 34) with
      | none =>
          refine ⟨s, rfl, hnone ?_⟩
          rw [stripLink, if_pos ⟨hroom, hstart⟩, hdrop, hquote]
      | some n =>
          have hn := (List.findIdx?_eq_some_iff_getElem.mp hquote).1
          rw [List.length_drop] at hn
          have hend : s.x + 9 + n < message.length := by omega
          have hskip : s.x + 9 + n - (s.x + 9) = n := Nat.add_sub_cancel_left _ _
          have hurl := peekN_terminated (s := message) (i := s.x + 9) (n := n) (by omega)
          obtain ⟨temp, hcopy, hinside, htake⟩ := copyLink_inside hs hend
          have hlink : stripLink (message.drop s.x) =
              (91 :: (message.drop (s.x + 9)).take n ++ [93, 32], message.drop (s.x + 9 + n)) := by
            rw [stripLink, if_pos ⟨hroom, hstart⟩, hdrop, hquote]
            simp only [List.drop_drop, Nat.add_assoc]
          have hle : s.x ≤ s.x + 9 + n := Nat.le_add_right_of_le (Nat.le_add_right _ _)
          rw [hlink]
          refine ⟨_, ?_, hinside, hend, hle, rfl, htake, rfl⟩
          simp only [Option.map_some, hskip, hurl, hcopy, ok_bind]
          rfl
    · rw [if_neg (fun h => hstart (decide_eq_true (of_decide_eq_true h)))]
      refine ⟨s, rfl, hnone ?_⟩
      rw [stripLink, if_neg (fun h => hstart h.2)]
  · rw [if_neg hfit]
    refine ⟨s, rfl, hnone ?_⟩
    rw [stripLink, if_neg]
    rw [List.length_drop]
    omega

/-- The tests for entities are tried on the rest of the message. -/
theorem findEntity_eq (x : Nat) {es : List (Str × UInt8)} (hes : ∀ e ∈ es, e.1 ≠ []) :
    findEntity message x es = .ok (es.find? fun e =>
      decide (e.1.length - 1 < (message.drop x).length ∧
        ((message.drop x).take e.1.length).map id = e.1.map id)) := by
  induction es with
  | nil => rfl
  | cons e es ih =>
      rw [findEntity, matchesAt_eq id (hes e List.mem_cons_self), ok_bind, List.find?_cons]
      cases decide (e.1.length - 1 < (message.drop x).length ∧
          ((message.drop x).take e.1.length).map id = e.1.map id) with
      | true => rfl
      | false => exact ih fun e he => hes e (List.mem_cons_of_mem _ he)

/-- A search through a table is a cascade of tests. -/
theorem map_find?_cons {α β : Type} (p : α → Prop) [DecidablePred p] (f : α → β) (a : α)
    (as : List α) :
    ((a :: as).find? fun a => decide (p a)).map f =
      if p a then some (f a) else (as.find? fun a => decide (p a)).map f := by
  by_cases ha : p a
  · rw [List.find?_cons_of_pos (by simpa using ha), if_pos ha, Option.map_some]
  · rw [List.find?_cons_of_neg (by simpa using ha), if_neg ha]

/-- The first test for an entity that succeeds. -/
theorem entity_eq (s : Str) :
    entity s = (entities.find? fun e =>
      decide (e.1.length - 1 < s.length ∧ (s.take e.1.length).map id = e.1.map id)).map
        fun e => (e.2, e.1.length) := by
  have hbefore : ∀ pat : Str, pat.isPrefixOf s = true ↔ s.take pat.length = pat := by
    intro pat
    rw [List.isPrefixOf_iff_prefix, List.prefix_iff_eq_take, eq_comm]
  -- one test of the cascade for each entity of the table
  simp only [entity, entities, hbefore, map_find?_cons, List.find?_nil, Option.map_none,
    List.map_id]
  rfl

theorem entity_of_ne {c : UInt8} (hc : c ≠ 38) (rest : Str) : entity (c :: rest) = none := by
  simp [entity, ascii, hc.symm]

/-! ## the walk over the rest of the message -/

/-- A tag opens: a link is written out, and a line break ends it at once. -/
theorem stripHtmlLoop_open (fuel : Nat) (rest : Str) :
    stripHtmlLoop (fuel + 1) false (60 :: rest) =
      if 3 < (stripLink (60 :: rest)).2.length ∧
          startsWithCase (ascii "<br>") (stripLink (60 :: rest)).2 then
        (stripLink (60 :: rest)).1 ++
          10 :: stripHtmlLoop fuel false ((stripLink (60 :: rest)).2.drop 4)
      else (stripLink (60 :: rest)).1 ++
        stripHtmlLoop fuel true ((stripLink (60 :: rest)).2.drop 1) :=
  rfl

/-- Inside a tag nothing is written. -/
theorem stripHtmlLoop_inside (fuel : Nat) (c : UInt8) (rest : Str) :
    stripHtmlLoop (fuel + 1) true (c :: rest) = stripHtmlLoop fuel (c ≠ 62) rest := by
  simp [stripHtmlLoop]

theorem stripHtmlLoop_entity (fuel : Nat) {c : UInt8} (hc : c ≠ 60) {rest : Str} {e : UInt8}
    {n : Nat} (h : entity (c :: rest) = some (e, n)) :
    stripHtmlLoop (fuel + 1) false (c :: rest) =
      e :: stripHtmlLoop fuel false ((c :: rest).drop n) := by
  simp [stripHtmlLoop, hc, h]

theorem stripHtmlLoop_lineEnd (fuel : Nat) {c : UInt8} (hc : c = 10 ∨ c = 13) (rest : Str) :
    stripHtmlLoop (fuel + 1) false (c :: rest) = stripHtmlLoop fuel false rest := by
  have hamp : entity (c :: rest) = none :=
    entity_of_ne (by rcases hc with rfl | rfl <;> decide) rest
  have hopen : c ≠ 60 := by rcases hc with rfl | rfl <;> decide
  simp [stripHtmlLoop, hopen, hamp, hc]

theorem stripHtmlLoop_plain (fuel : Nat) {c : UInt8} (hopen : c ≠ 60) (hline : ¬ (c = 10 ∨ c = 13))
    {rest : Str} (h : entity (c :: rest) = none) :
    stripHtmlLoop (fuel + 1) false (c :: rest) = c :: stripHtmlLoop fuel false rest := by
  simp [stripHtmlLoop, hopen, h, hline]

/-- What an iteration does: it stays inside, moves on, and appends to the
text what the walk over the rest of the message puts in front. -/
structure Strip.Advances (message : Str) (s s' : Strip) : Prop where
  inside : s'.Inside message
  lt : s.x < s'.x
  text : ∃ written, s'.text = s.text ++ written ∧ ∀ fuel,
    stripHtmlLoop (fuel + 1) s.inhtml (message.drop s.x) =
      written ++ stripHtmlLoop fuel s'.inhtml (message.drop s'.x)

/-- An iteration that opens a tag. -/
theorem stripStep_open (hs : s.Inside message) (hlt : s.x < message.length)
    (hopen : message[s.x] = 60) (hout : s.inhtml = false) :
    ∃ s', stripStep message s = .ok s' ∧ s.Advances message s' := by
  have hdrop : message.drop s.x = message[s.x] :: message.drop (s.x + 1) :=
    List.drop_eq_getElem_cons hlt
  obtain ⟨s₁, hlink, hs₁, hlt₁, hle, hin, htext, hrest⟩ := stripLinkAt_spec hs hlt
  have hwalk : ∀ fuel, stripHtmlLoop (fuel + 1) s.inhtml (message.drop s.x) = _ := fun fuel => by
    rw [hout, hdrop, hopen, stripHtmlLoop_open, ← hopen, ← hdrop, ← hrest, List.drop_drop,
      List.drop_drop]
  have hbreak : matchesAt message tolower s₁.x (ascii "<br>") =
      .ok (decide (3 < (message.drop s₁.x).length ∧
        startsWithCase (ascii "<br>") (message.drop s₁.x) = true)) := by
    rw [matchesAt_eq tolower (by decide)]
    simp only [startsWithCase, decide_eq_true_eq]
    rfl
  rw [stripStep, peek_terminated hdrop, ok_bind, if_pos ⟨hopen, hout⟩, hlink, ok_bind, hbreak,
    ok_bind]
  by_cases hbr : 3 < (message.drop s₁.x).length ∧
      startsWithCase (ascii "<br>") (message.drop s₁.x) = true
  · have hroom := hbr.1
    rw [List.length_drop] at hroom
    obtain ⟨s₂, hemit, hs₂, hx, hin₂, htext₂⟩ := emit_move hs₁ 10 (k := 4) (by omega) (by omega)
    rw [if_pos (decide_eq_true hbr)]
    refine ⟨s₂, hemit, hs₂, by omega, (stripLink (message.drop s.x)).1 ++ [10], ?_, fun fuel => ?_⟩
    · rw [htext₂, htext, List.append_assoc]
    · rw [hwalk, if_pos hbr, hin₂, hin, hout, hx, List.append_assoc]
      rfl
  · rw [if_neg (by simpa using hbr)]
    refine ⟨_, rfl, ⟨?_, hlt₁, hs₁.length_temp⟩, Nat.lt_succ_of_le hle, _, htext, fun fuel => ?_⟩
    · exact Nat.le_succ_of_le hs₁.count_le
    · rw [hwalk, if_neg hbr]

/-- An iteration inside a tag. -/
theorem stripStep_inside (hs : s.Inside message) (hlt : s.x < message.length)
    (hin : s.inhtml = true) : ∃ s', stripStep message s = .ok s' ∧ s.Advances message s' := by
  have hdrop : message.drop s.x = message[s.x] :: message.drop (s.x + 1) :=
    List.drop_eq_getElem_cons hlt
  rw [stripStep, peek_terminated hdrop, ok_bind, if_neg (by simp [hin]), if_pos hin]
  refine ⟨_, rfl, ⟨Nat.le_succ_of_le hs.count_le, hlt, hs.length_temp⟩, Nat.lt_succ_self _, [],
    (List.append_nil _).symm, fun fuel => ?_⟩
  rw [hin, hdrop, stripHtmlLoop_inside]
  rfl

/-- An iteration over text. -/
theorem stripStep_text (hs : s.Inside message) (hlt : s.x < message.length)
    (hopen : message[s.x] ≠ 60) (hout : s.inhtml = false) :
    ∃ s', stripStep message s = .ok s' ∧ s.Advances message s' := by
  have hdrop : message.drop s.x = message[s.x] :: message.drop (s.x + 1) :=
    List.drop_eq_getElem_cons hlt
  have htests : (if message[s.x] = 38 then findEntity message s.x entities else pure none) =
      .ok (entities.find? fun e => decide (e.1.length - 1 < (message.drop s.x).length ∧
        ((message.drop s.x).take e.1.length).map id = e.1.map id)) := by
    by_cases hamp : message[s.x] = 38
    · rw [if_pos hamp]
      exact findEntity_eq s.x (by decide)
    · have hnone := entity_eq (message.drop s.x)
      rw [hdrop, entity_of_ne hamp, ← hdrop, eq_comm, Option.map_eq_none_iff] at hnone
      rw [if_neg hamp, hnone]
      rfl
  rw [stripStep, peek_terminated hdrop, ok_bind, if_neg (fun h => hopen h.1),
    if_neg (by simp [hout]), htests, ok_bind]
  have hentity := entity_eq (message.drop s.x)
  cases hfind : entities.find? fun e => decide (e.1.length - 1 < (message.drop s.x).length ∧
      ((message.drop s.x).take e.1.length).map id = e.1.map id) with
  | some e =>
      have hmem := List.mem_of_find?_eq_some hfind
      have hfits := List.find?_some hfind
      have hroom := (of_decide_eq_true hfits).1
      have hpos : 0 < e.1.length := by
        have hall : ∀ e ∈ entities, 0 < e.1.length := by decide
        exact hall e hmem
      rw [List.length_drop] at hroom
      obtain ⟨s₂, hemit, hs₂, hx, hin₂, htext₂⟩ := emit_move hs e.2 hpos (by omega)
      rw [hfind, Option.map_some] at hentity
      refine ⟨s₂, hemit, hs₂, by omega, [e.2], htext₂, fun fuel => ?_⟩
      rw [hdrop] at hentity
      rw [hout, hdrop, stripHtmlLoop_entity fuel hopen hentity, ← hdrop, List.drop_drop, hin₂, hout,
        hx]
      rfl
  | none =>
      rw [hfind, Option.map_none, hdrop] at hentity
      by_cases hline : message[s.x] = 10 ∨ message[s.x] = 13
      · refine ⟨{ s with x := s.x + 1 }, if_pos hline,
          ⟨Nat.le_succ_of_le hs.count_le, hlt, hs.length_temp⟩, Nat.lt_succ_self _, [],
          (List.append_nil _).symm, fun fuel => ?_⟩
        rw [hout, hdrop, stripHtmlLoop_lineEnd fuel hline]
        rfl
      · obtain ⟨s₂, hemit, hs₂, hx, hin₂, htext₂⟩ :=
          emit_move hs message[s.x] (k := 1) (by omega) hlt
        refine ⟨s₂, (if_neg hline).trans hemit, hs₂, by omega, [message[s.x]], htext₂,
          fun fuel => ?_⟩
        rw [hout, hdrop, stripHtmlLoop_plain fuel hopen hline hentity, hin₂, hout, hx]
        rfl

/-- **One iteration.** -/
theorem stripStep_advances (hs : s.Inside message) (hlt : s.x < message.length) :
    ∃ s', stripStep message s = .ok s' ∧ s.Advances message s' := by
  cases hin : s.inhtml with
  | true => exact stripStep_inside hs hlt hin
  | false =>
      by_cases hopen : message[s.x] = 60
      · exact stripStep_open hs hlt hopen hin
      · exact stripStep_text hs hlt hopen hin

/-- **The run** stays inside, ends, and writes the walk over the message. -/
theorem stripLoop_spec (fuel : Nat) (hs : s.Inside message) (hfuel : message.length < s.x + fuel)
    {n : Nat} (hn : message.length ≤ s.x + n) :
    ∃ s', stripLoop message fuel s = .ok s' ∧ s'.Inside message ∧
      s'.text = s.text ++ stripHtmlLoop n s.inhtml (message.drop s.x) := by
  induction fuel generalizing s n with
  | zero => exact absurd hs.x_le (by omega)
  | succ fuel ih =>
      rw [stripLoop]
      by_cases hlt : s.x < message.length
      · obtain ⟨s₁, hstep, hs₁, hx, written, htext, hwalk⟩ := stripStep_advances hs hlt
        obtain ⟨n, rfl⟩ : ∃ k, n = k + 1 := ⟨n - 1, by omega⟩
        obtain ⟨s₂, hloop, hs₂, htext₂⟩ := ih hs₁ (n := n) (by omega) (by omega)
        rw [if_pos hlt, hstep, ok_bind]
        exact ⟨s₂, hloop, hs₂, by rw [htext₂, htext, hwalk, List.append_assoc]⟩
      · have hnil : message.drop s.x = [] := List.drop_of_length_le (by omega)
        refine ⟨s, if_neg hlt, hs, ?_⟩
        rw [hnil]
        cases n <;> exact (List.append_nil _).symm

end

section
variable [Host]

/-- `realloc` to `n` bytes. -/
def realloc (buf : List UInt8) (n : Nat) : List UInt8 := (buf ++ (malloc n).drop buf.length).take n

/-- `strip_html`, as the block that it returns. -/
def stripHtmlBlock (message : Str) : Except Fault (List UInt8) := do
  let s ← stripLoop message (message.length + 1) ⟨0, 0, false, malloc (message.length + 1)⟩
  storeN (realloc s.temp (s.count + 1)) s.count [0]

/-- `strip_html` returns what the walk writes, and a terminator. -/
theorem stripHtmlBlock_eq (message : Str) :
    stripHtmlBlock message = .ok (stripHtml message ++ [0]) ∧
      (stripHtml message).length ≤ message.length := by
  have hstart : Strip.Inside message ⟨0, 0, false, malloc (message.length + 1)⟩ :=
    ⟨Nat.le_refl _, Nat.zero_le _, length_malloc _⟩
  obtain ⟨s, hloop, hs, htext⟩ := stripLoop_spec (message.length + 1) hstart
    (n := message.length) (by simp) (by simp)
  have hcount := hs.count_le
  have hx := hs.x_le
  have htemp := hs.length_temp
  have htext' : s.temp.take s.count = stripHtml message := htext
  have hlen : (stripHtml message).length = s.count := by
    rw [← htext', List.length_take]
    omega
  have hblock : realloc s.temp (s.count + 1) = s.temp.take (s.count + 1) :=
    List.take_append_of_le_length (by omega)
  have htext'' : (s.temp.take (s.count + 1)).take s.count = stripHtml message := by
    rw [List.take_take, Nat.min_eq_left (Nat.le_succ _), htext']
  obtain ⟨block, hstore, hlenblock, htake⟩ := storeN_take [0] htext''
    (by rw [List.length_take, List.length_singleton]; omega)
  refine ⟨?_, by omega⟩
  rw [stripHtmlBlock, hloop, ok_bind, hblock, hstore, ← htake, List.take_of_length_le]
  rw [hlenblock, List.length_take]
  exact Nat.min_le_left _ _

/-- **`strip_html` never overruns its buffer**: whatever the message, every
read and write is inside, the loop ends, and the text is no longer than the
message. -/
theorem strip_html_inside (message : Str) :
    ∃ text, stripHtmlBlock message = .ok (text ++ [0]) ∧ text.length ≤ message.length :=
  ⟨_, stripHtmlBlock_eq message⟩

end

end Bsflite
