import Bsflite.Strip

/-!
# Bsflite.Markup

What `strip_html` means.  A document is a list of items: characters, raw line
ends, entities, line breaks, links and other tags.  Each is written in some
way (`render`), and stands for some text (`meaning`).

`strip_render` says that the walk over the rendering of a document writes its
meaning, one item at a time, whatever comes behind: `strip_item` has one case
for each kind of item.
-/

namespace Bsflite

/-! ## documents -/

/-- The entities that `strip_html` knows. -/
inductive Entity where
  | amp
  | quot
  | nbsp
  | lt
  | gt
deriving DecidableEq, Repr

namespace Entity

def name : Entity → Str
  | amp => ascii "&amp;"
  | quot => ascii "&quot;"
  | nbsp => ascii "&nbsp;"
  | lt => ascii "&lt;"
  | gt => ascii "&gt;"

def char : Entity → UInt8
  | amp => 38
  | quot => 34
  | nbsp => 32
  | lt => 60
  | gt => 62

end Entity

/-- One item of a document. -/
inductive Item where
  /-- any character that means itself -/
  | char (c : { c : UInt8 // c ∉ [60, 38, 10, 13, 0] })
  /-- a newline or a carriage return -/
  | lineEnd (c : { c : UInt8 // c = 10 ∨ c = 13 })
  | entity (e : Entity)
  /-- `<br>`, in any case -/
  | lineBreak (b : { b : Str // b.map tolower = ascii "<br>" })
  /-- `<a href="`, in any case, the URL and what follows its quote -/
  | link (a : { a : Str // a.map tolower = ascii "<a href=\"" }) (url : { u : Str // 34 ∉ u })
      (rest : { r : Str // 62 ∉ r })
  /-- a tag that is neither -/
  | tag (body : { b : Str // 62 ∉ b ∧ b.map tolower ≠ ascii "br" ∧
      ¬ ascii "a href=\"" <+: b.map tolower })

namespace Item

/-- How an item is written. -/
def render : Item → Str
  | char c => [c.val]
  | lineEnd c => [c.val]
  | entity e => e.name
  | lineBreak b => b.val
  | link a url rest => a.val ++ (url.val ++ 34 :: (rest.val ++ [62]))
  | tag body => 60 :: (body.val ++ [62])

/-- What an item stands for. -/
def meaning : Item → Str
  | char c => [c.val]
  | lineEnd _ => []
  | entity e => [e.char]
  | lineBreak _ => [10]
  | link _ url _ => 91 :: url.val ++ [93, 32]
  | tag _ => []

end Item

/-- How a document is written. -/
def render (doc : List Item) : Str := doc.flatMap Item.render

/-- What a document stands for. -/
def meaning (doc : List Item) : Str := doc.flatMap Item.meaning

/-! ## the walk without fuel -/

/-- The walk over `s`, inside a tag or not. -/
def strip (inhtml : Bool) (s : Str) : Str := stripHtmlLoop s.length inhtml s

theorem stripHtml_eq_strip (s : Str) : stripHtml s = strip false s := rfl

/-- Any fuel that lasts for the string will do. -/
theorem stripHtmlLoop_eq_strip {n : Nat} (inhtml : Bool) {s : Str} (h : s.length ≤ n) :
    stripHtmlLoop n inhtml s = strip inhtml s := by
  have hstart : Strip.Inside s ⟨0, 0, inhtml, List.replicate (s.length + 1) 0⟩ :=
    ⟨Nat.le_refl _, Nat.zero_le _, List.length_replicate⟩
  -- both are what the loop over the block writes
  obtain ⟨s₁, hloop₁, -, htext₁⟩ := stripLoop_spec (s.length + 1) hstart (n := n) (by simp)
    (by simpa using h)
  obtain ⟨s₂, hloop₂, -, htext₂⟩ := stripLoop_spec (s.length + 1) hstart (n := s.length)
    (by simp) (by simp)
  rw [hloop₁, Except.ok.injEq] at hloop₂
  rw [hloop₂, htext₂] at htext₁
  exact (List.append_cancel_left htext₁).symm

theorem strip_inside (c : UInt8) (rest : Str) : strip true (c :: rest) = strip (c ≠ 62) rest :=
  stripHtmlLoop_inside _ c rest

/-- A tag ends at its first `>`. -/
theorem strip_tag_end {body : Str} (h : 62 ∉ body) (rest : Str) :
    strip true (body ++ 62 :: rest) = strip false rest := by
  induction body with
  | nil => exact strip_inside 62 rest
  | cons c body ih =>
      rw [List.mem_cons, not_or] at h
      rw [List.cons_append, strip_inside, decide_eq_true (Ne.symm h.1)]
      exact ih h.2

/-! ## one item -/

theorem tolower_eq_of_lt {c p : UInt8} (hp : p < 65) (h : tolower c = p) : c = p := by
  rw [tolower] at h
  split at h
  · rename_i hcap
    have hc : c.toNat ≤ 90 := UInt8.le_iff_toNat_le.mp hcap.2
    have hc' : 65 ≤ c.toNat := UInt8.le_iff_toNat_le.mp hcap.1
    have hlt : p.toNat < 65 := UInt8.lt_iff_toNat_lt.mp hp
    have hsum := congrArg UInt8.toNat h
    rw [UInt8.toNat_add] at hsum
    have h32 : (32 : UInt8).toNat = 32 := rfl
    omega
  · exact h

/-- A pattern without `>` that starts a tag starts its body. -/
theorem prefix_of_startsWith {pat body rest : Str} (hpat : 62 ∉ pat)
    (h : ((body ++ 62 :: rest).take pat.length).map tolower = pat) : pat <+: body.map tolower := by
  induction pat generalizing body with
  | nil => exact List.nil_prefix
  | cons p pat ih =>
      rw [List.mem_cons, not_or] at hpat
      cases body with
      | nil =>
          have hhead := (List.cons.inj h).1
          exact absurd hhead hpat.1
      | cons c body =>
          obtain ⟨hhead, htail⟩ := List.cons.inj h
          obtain ⟨t, ht⟩ := ih hpat.2 htail
          exact ⟨t, by rw [List.map_cons, hhead, ← ht]; rfl⟩

/-- A pattern that ends with `>` and is a tag is that tag. -/
theorem body_of_startsWith {pat body rest : Str} (hpat : 62 ∉ pat) (hbody : 62 ∉ body)
    (h : ((body ++ 62 :: rest).take (pat.length + 1)).map tolower = pat ++ [62]) :
    body.map tolower = pat := by
  induction pat generalizing body with
  | nil =>
      cases body with
      | nil => rfl
      | cons c body =>
          have hhead := (List.cons.inj h).1
          exact absurd (tolower_eq_of_lt (by decide) hhead).symm (fun hc => hbody (by simp [hc]))
  | cons p pat ih =>
      rw [List.mem_cons, not_or] at hpat
      cases body with
      | nil =>
          have hhead := (List.cons.inj h).1
          exact absurd hhead hpat.1
      | cons c body =>
          rw [List.mem_cons, not_or] at hbody
          obtain ⟨hhead, htail⟩ := List.cons.inj h
          rw [List.map_cons, hhead, ih hpat.2 hbody.2 htail]

/-- A pattern that starts `s`, in any case, starts it with more behind. -/
theorem startsWithCase_append (pat : Str) {s : Str} (h : s.map tolower = pat.map tolower)
    (rest : Str) : startsWithCase pat (s ++ rest) = true := by
  have hlen : s.length = pat.length := by
    simpa using congrArg List.length h
  rw [startsWithCase, decide_eq_true_iff, ← hlen, List.take_left, h]

/-- What differs at one place does not start with the pattern. -/
theorem startsWithCase_of_ne {pat s : Str} {i : Nat} {c : UInt8} (hc : s[i]? = some c) {p : UInt8}
    (hp : pat[i]? = some p) (hne : tolower c ≠ tolower p) : startsWithCase pat s = false := by
  rw [startsWithCase, decide_eq_false_iff_not]
  intro h
  have hi := (List.getElem?_eq_some_iff.mp hp).1
  have hat := congrArg (fun l : Str => l[i]?) h
  simp only [List.getElem?_map, List.getElem?_take, if_pos hi, hc, hp, Option.map_some,
    Option.some.injEq] at hat
  exact hne hat

/-- What does not start like a link is none. -/
theorem stripLink_of_not {s : Str} (h : startsWithCase (ascii "<a href=\"") s = false) :
    stripLink s = ([], s) := by
  rw [stripLink, if_neg]
  rw [h]
  exact fun hlink => Bool.false_ne_true hlink.2

/-- A walk that opens a tag, for a string in two parts. -/
theorem strip_open (rest : Str) :
    strip false (60 :: rest) =
      if 3 < (stripLink (60 :: rest)).2.length ∧
          startsWithCase (ascii "<br>") (stripLink (60 :: rest)).2 then
        (stripLink (60 :: rest)).1 ++ 10 :: strip false ((stripLink (60 :: rest)).2.drop 4)
      else (stripLink (60 :: rest)).1 ++ strip true ((stripLink (60 :: rest)).2.drop 1) := by
  have hle : (stripLink (60 :: rest)).2.length ≤ rest.length + 1 := by
    rw [stripLink]
    split
    · split
      · simp
      · exact Nat.le_refl _
    · exact Nat.le_refl _
  rw [strip, List.length_cons, stripHtmlLoop_open]
  rw [stripHtmlLoop_eq_strip, stripHtmlLoop_eq_strip]
  · rw [List.length_drop]
    omega
  · rw [List.length_drop]
    omega

theorem strip_entity (e : Entity) (rest : Str) :
    strip false (e.name ++ rest) = e.char :: strip false rest := by
  have hentity : entity (e.name ++ rest) = some (e.char, e.name.length) := by
    cases e <;> simp [entity, Entity.name, Entity.char, ascii]
  obtain ⟨c, name, hname, hopen⟩ : ∃ c name, e.name = c :: name ∧ c ≠ 60 := by
    cases e <;> exact ⟨_, _, rfl, by decide⟩
  rw [hname, List.cons_append] at hentity ⊢
  rw [strip, List.length_cons, stripHtmlLoop_entity _ hopen hentity, List.length_cons,
    List.drop_succ_cons, List.drop_left, stripHtmlLoop_eq_strip]
  simp

theorem strip_lineBreak {b : Str} (hb : b.map tolower = ascii "<br>") (rest : Str) :
    strip false (b ++ rest) = 10 :: strip false rest := by
  have hlen : b.length = 4 := by
    rw [← List.length_map (f := tolower), hb]
    rfl
  obtain ⟨c, b', rfl⟩ := List.exists_cons_of_length_eq_add_one hlen
  have hlower : tolower c :: b'.map tolower = 60 :: ascii "br>" := hb
  obtain ⟨hc, hb'⟩ := List.cons.inj hlower
  obtain rfl := tolower_eq_of_lt (by decide) hc
  have hlink : stripLink (60 :: (b' ++ rest)) = ([], 60 :: (b' ++ rest)) := by
    apply stripLink_of_not
    obtain ⟨c', b'', rfl⟩ := List.exists_cons_of_length_eq_add_one (Nat.succ.inj hlen)
    have hlower' : tolower c' :: b''.map tolower = 98 :: ascii "r>" := hb'
    have hc' := (List.cons.inj hlower').1
    refine startsWithCase_of_ne (i := 1) (c := c') (p := 97) rfl rfl ?_
    rw [hc']
    decide
  have hstart := startsWithCase_append (ascii "<br>") hb rest
  have hroom : 3 < (60 :: (b' ++ rest)).length := by
    rw [List.length_cons] at hlen
    rw [List.length_cons, List.length_append]
    omega
  rw [List.cons_append, strip_open, hlink, if_pos ⟨hroom, hstart⟩, List.nil_append]
  rw [← List.cons_append, List.drop_left' hlen]

theorem strip_link {a url body : Str} (ha : a.map tolower = ascii "<a href=\"") (hurl : 34 ∉ url)
    (hbody : 62 ∉ body) (rest : Str) :
    strip false (a ++ (url ++ 34 :: (body ++ 62 :: rest))) =
      91 :: url ++ [93, 32] ++ strip false rest := by
  have hlen : a.length = 9 := by
    rw [← List.length_map (f := tolower), ha]
    rfl
  have hlink : stripLink (a ++ (url ++ 34 :: (body ++ 62 :: rest))) =
      (91 :: url ++ [93, 32], 34 :: (body ++ 62 :: rest)) := by
    have hroom : 10 < (a ++ (url ++ 34 :: (body ++ 62 :: rest))).length := by
      simp only [List.length_append, List.length_cons]
      omega
    have hquote : (url ++ 34 :: (body ++ 62 :: rest)).findIdx? (· = 34) = some url.length := by
      rw [List.findIdx?_append, List.findIdx?_eq_none_iff.mpr (by
        intro c hc
        rw [decide_eq_false_iff_not]
        rintro rfl
        exact hurl hc)]
      simp [List.findIdx?_cons]
    rw [stripLink, if_pos ⟨hroom, startsWithCase_append (ascii "<a href=\"") ha _⟩,
      List.drop_left' hlen, hquote]
    simp only [List.take_left, ← List.drop_drop, List.drop_left' hlen, List.drop_left]
  obtain ⟨c, a', rfl⟩ := List.exists_cons_of_length_eq_add_one hlen
  have hlower : tolower c :: a'.map tolower = 60 :: ascii "a href=\"" := ha
  obtain rfl := tolower_eq_of_lt (by decide) (List.cons.inj hlower).1
  -- what stands behind the URL is its quote, and no line break
  have hbr : startsWithCase (ascii "<br>") (34 :: (body ++ 62 :: rest)) = false :=
    startsWithCase_of_ne (i := 0) (c := 34) (p := 60) rfl rfl (by decide)
  rw [List.cons_append] at hlink ⊢
  rw [strip_open, hlink, hbr, if_neg (fun h => Bool.false_ne_true h.2), List.drop_one,
    List.tail_cons, strip_tag_end hbody]

theorem strip_tag {body : Str} (hbody : 62 ∉ body) (hbr : body.map tolower ≠ ascii "br")
    (hlink : ¬ ascii "a href=\"" <+: body.map tolower) (rest : Str) :
    strip false (60 :: (body ++ 62 :: rest)) = strip false rest := by
  have hnolink : startsWithCase (ascii "<a href=\"") (60 :: (body ++ 62 :: rest)) = false := by
    rw [startsWithCase, decide_eq_false_iff_not]
    exact fun h => hlink (prefix_of_startsWith (by decide) (List.cons.inj h).2)
  have hnobr : startsWithCase (ascii "<br>") (60 :: (body ++ 62 :: rest)) = false := by
    rw [startsWithCase, decide_eq_false_iff_not]
    exact fun h => hbr (body_of_startsWith (by decide) hbody (List.cons.inj h).2)
  rw [strip_open, stripLink_of_not hnolink, hnobr, if_neg (fun h => Bool.false_ne_true h.2),
    List.nil_append, List.drop_one, List.tail_cons, strip_tag_end hbody]

/-- **One item**, in front of anything. -/
theorem strip_item (i : Item) (rest : Str) :
    strip false (i.render ++ rest) = i.meaning ++ strip false rest := by
  cases i with
  | char c =>
      obtain ⟨c, hc⟩ := c
      simp only [List.mem_cons, List.not_mem_nil, or_false, not_or] at hc
      exact stripHtmlLoop_plain _ hc.1 (by simp [hc]) (entity_of_ne hc.2.1 rest)
  | lineEnd c => exact stripHtmlLoop_lineEnd _ c.property rest
  | entity e => exact strip_entity e rest
  | lineBreak b => exact strip_lineBreak b.property rest
  | link a url body =>
      have hlink := strip_link a.property url.property body.property rest
      simpa [Item.render, Item.meaning] using hlink
  | tag body =>
      have htag := strip_tag body.property.1 body.property.2.1 body.property.2.2 rest
      simpa [Item.render, Item.meaning] using htag

/-- The walk over a document writes its meaning. -/
theorem strip_render (doc : List Item) : strip false (render doc) = meaning doc := by
  induction doc with
  | nil => rfl
  | cons i doc ih =>
      have hrender : render (i :: doc) = i.render ++ render doc := rfl
      rw [hrender, strip_item, ih]
      rfl

/-- **`strip_html` meets its reference meaning**: it turns the rendering of a
document into its meaning. -/
theorem strip_html_document [Host] (doc : List Item) :
    stripHtmlBlock (render doc) = .ok (meaning doc ++ [0]) := by
  rw [(stripHtmlBlock_eq (render doc)).1, stripHtml_eq_strip, strip_render]

end Bsflite
