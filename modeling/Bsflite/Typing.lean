import Bsflite.Keyboard
import Bsflite.Markup

/-!
# Bsflite.Typing

What is typed is what is shown: the keys escape what is typed into the line,
and `strip_html` takes the escapes out again.

A key that types something appends the rendering of one item of a document,
whose meaning is what was typed.

* `presses_types` — so do all of them.
* `typed_is_shown` — and `strip_html` shows that meaning.
-/

namespace Bsflite

/-- A key that types something: a printable character, or Ctrl-B. -/
def Types (inchr : UInt8) : Prop := 32 ≤ inchr ∧ inchr ≠ 127 ∨ inchr = 2

/-- What a key stands for. -/
def typed (inchr : UInt8) : UInt8 := if inchr = 2 then 10 else inchr

section
variable {l : Line}

/-- A printable character that is not escaped is added as it is. -/
theorem press_plain (hstart : l.text ≠ []) (env : Surroundings) {inchr : UInt8}
    (hprint : 32 ≤ inchr) (hdel : inchr ≠ 127) (hplain : inchr ∉ [34, 60, 62, 38]) :
    l.press env inchr = l.add inchr := by
  have hctrl : ∀ c : UInt8, c < 32 → inchr ≠ c := by
    rintro c hc rfl
    exact absurd hprint (UInt8.not_le.mpr hc)
  simp only [List.mem_cons, List.not_mem_nil, or_false, not_or] at hplain
  obtain ⟨hquot, hlt, hgt, hamp⟩ := hplain
  have henter : ¬ (inchr = 10 ∨ inchr = 13) :=
    not_or.mpr ⟨hctrl 10 (by decide), hctrl 13 (by decide)⟩
  have hback : ¬ (inchr = 8 ∨ inchr = 127 ∨ inchr = 4) :=
    not_or.mpr ⟨hctrl 8 (by decide), not_or.mpr ⟨hdel, hctrl 4 (by decide)⟩⟩
  rw [Line.press, if_neg henter, if_neg (hctrl 18 (by decide)), if_neg (hctrl 21 (by decide)),
    if_neg (hctrl 12 (by decide)), if_neg (hctrl 9 (by decide)), if_neg hback,
    if_neg (hctrl 2 (by decide)), if_neg hquot, if_neg hlt, if_neg hgt, if_neg hamp,
    if_neg (UInt8.not_lt.mpr hprint)]
  by_cases hcmd : inchr = 114 ∨ inchr = 73 ∨ inchr = 76
  · rw [if_pos hcmd, Line.expand, if_neg hstart]
  · rw [if_neg hcmd]

/-- A key appends the rendering of an item that means what was typed. -/
theorem press_types (hstart : l.text ≠ []) (hraw : l.rawinput = false) (hroom : l.text.length ≤ 507)
    (env : Surroundings) {inchr : UInt8} (h : Types inchr) :
    ∃ item : Item, item.meaning = [typed inchr] ∧
      (l.press env inchr).text = l.text ++ item.render ∧ (l.press env inchr).rawinput = false := by
  -- an escape is within its limit
  have hescape : ∀ {c : UInt8} {limit : Nat} {text : Str}, 507 ≤ limit →
      l.escape c limit text = { l with text := l.text ++ text } := by
    intro c limit text hlimit
    rw [Line.escape, if_neg (by simp [hraw]), Line.append, if_neg (by omega)]
  by_cases hbr : inchr = 2
  · subst hbr
    have hpress : l.press env 2 = l.append 509 (ascii "<br>") := rfl
    rw [hpress, Line.append, if_neg (by omega)]
    exact ⟨.lineBreak ⟨ascii "<br>", by decide⟩, rfl, rfl, hraw⟩
  by_cases hquot : inchr = 34
  · subst hquot
    have hpress : l.press env 34 = { l with text := l.text ++ ascii "&quot;" } :=
      hescape (by decide)
    rw [hpress]
    exact ⟨.entity .quot, rfl, rfl, hraw⟩
  by_cases hlt : inchr = 60
  · subst hlt
    have hpress : l.press env 60 = { l with text := l.text ++ ascii "&lt;" } := hescape (by decide)
    rw [hpress]
    exact ⟨.entity .lt, rfl, rfl, hraw⟩
  by_cases hgt : inchr = 62
  · subst hgt
    have hpress : l.press env 62 = { l with text := l.text ++ ascii "&gt;" } := hescape (by decide)
    rw [hpress]
    exact ⟨.entity .gt, rfl, rfl, hraw⟩
  by_cases hamp : inchr = 38
  · subst hamp
    have hpress : l.press env 38 = { l with text := l.text ++ ascii "&amp;" } := hescape (by decide)
    rw [hpress]
    exact ⟨.entity .amp, rfl, rfl, hraw⟩
  obtain ⟨hprint, hdel⟩ := h.resolve_right hbr
  have hchar : inchr ∉ [60, 38, 10, 13, 0] := by
    simp only [List.mem_cons, List.not_mem_nil, or_false, not_or]
    refine ⟨hlt, hamp, ?_, ?_, ?_⟩ <;> rintro rfl <;> exact absurd hprint (by decide)
  have hadd : l.add inchr = { l with text := l.text ++ [inchr], istyping := true } :=
    if_neg (by omega)
  rw [press_plain hstart env hprint hdel (by simp [hquot, hlt, hgt, hamp]), hadd]
  exact ⟨.char ⟨inchr, hchar⟩, by rw [typed, if_neg hbr]; rfl, rfl, hraw⟩

/-- **A run of such keys** appends the rendering of a document that means
what was typed. -/
theorem presses_types {strokes : List (Surroundings × UInt8)} (hstart : l.text ≠ [])
    (hraw : l.rawinput = false) (hkeys : ∀ stroke ∈ strokes, Types stroke.2)
    (hroom : ∀ before, before <+: strokes → (l.presses before).text.length ≤ 507) :
    ∃ doc : List Item, meaning doc = strokes.map (fun stroke => typed stroke.2) ∧
      (l.presses strokes).text = l.text ++ render doc := by
  induction strokes generalizing l with
  | nil => exact ⟨[], rfl, (List.append_nil _).symm⟩
  | cons stroke strokes ih =>
      obtain ⟨item, hmeaning, htext, hraw₁⟩ := press_types hstart hraw (hroom [] List.nil_prefix)
        stroke.1 (hkeys stroke List.mem_cons_self)
      obtain ⟨doc, hdoc, hrest⟩ :=
        ih (l := l.press stroke.1 stroke.2) (by simp [htext, hstart]) hraw₁
          (fun s hs => hkeys s (List.mem_cons_of_mem _ hs))
        (fun before hb => hroom (stroke :: before) (List.cons_prefix_cons.mpr ⟨rfl, hb⟩))
      refine ⟨item :: doc, ?_, ?_⟩
      · rw [List.map_cons, ← hdoc]
        exact congrArg (· ++ meaning doc) hmeaning
      · have hpresses : l.presses (stroke :: strokes) =
            (l.press stroke.1 stroke.2).presses strokes := rfl
        rw [hpresses, hrest, htext, List.append_assoc]
        rfl

end

section
variable [Host] {k : Keyboard} {l : Line}

/-- **What is typed is what is shown**: `strip_html` turns what the keys
append to a line into what was typed, with a newline for every Ctrl-B. -/
theorem typed_is_shown (hk : k.Shows l) (hstart : l.text ≠ []) (hraw : l.rawinput = false)
    {strokes : List (Surroundings × UInt8)} (hkeys : ∀ stroke ∈ strokes, Types stroke.2)
    (hroom : ∀ before, before <+: strokes →
      ∃ k', pressKeys k before = .ok k' ∧ (cstr k'.inputbuf).length ≤ 507) :
    ∃ k' added, pressKeys k strokes = .ok k' ∧ cstr k'.inputbuf = l.text ++ added ∧
      stripHtmlBlock added = .ok (strokes.map (fun stroke => typed stroke.2) ++ [0]) := by
  have hline : ∀ before, before <+: strokes → (l.presses before).text.length ≤ 507 := by
    intro before hb
    obtain ⟨k', hrun, hlen⟩ := hroom before hb
    rwa [(pressKeys_shows hk hrun).cstr_inputbuf] at hlen
  obtain ⟨k', hrun, -⟩ := hroom strokes (List.prefix_refl _)
  obtain ⟨doc, hdoc, htext⟩ := presses_types hstart hraw hkeys hline
  refine ⟨k', render doc, hrun, ?_, ?_⟩
  · rw [(pressKeys_shows hk hrun).cstr_inputbuf, htext]
  · rw [(stripHtmlBlock_eq _).1, stripHtml_eq_strip, strip_render, hdoc]

end

/-- `m<` is typed, and `m&lt;` is the line. -/
theorem typed_is_shown_less_than :
    ∃ k' added, pressKeys ⟨padded (ascii "m"), true, false⟩ [(⟨[], none, false⟩, 60)] = .ok k' ∧
      cstr k'.inputbuf = ascii "m" ++ added ∧
      @stripHtmlBlock littleEndianHost added = .ok [60, 0] := by
  have hk : Keyboard.Shows ⟨padded (ascii "m"), true, false⟩ ⟨ascii "m", true, false⟩ :=
    ⟨rfl, by decide, by decide, rfl, rfl⟩
  have hfits : ¬ Keyboard.Overflows ⟨padded (ascii "m"), true, false⟩ 60 := by
    rw [Keyboard.Overflows, hk.cstr_inputbuf]
    decide
  obtain ⟨k', hpress, hk'⟩ := pressKey_line hk ⟨[], none, false⟩ hfits
  refine @typed_is_shown littleEndianHost _ _ hk (by decide) rfl _ (by simp [Types]) ?_
  intro before hb
  rcases List.prefix_cons_iff.mp hb with rfl | ⟨t, rfl, ht⟩
  · exact ⟨_, rfl, by rw [hk.cstr_inputbuf]; decide⟩
  · obtain rfl := List.prefix_nil.mp ht
    exact ⟨k', (bind_pure _).trans hpress, by rw [hk'.cstr_inputbuf]; decide⟩

end Bsflite
