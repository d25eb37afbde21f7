import Bsflite.Requests

/-!
# Bsflite.Text

The text filters of the client: `strip_html` of `util.c` and `undo_netspeak`
of `cleaner.c`.

Both walk a string by an index; here the walk goes over the rest of the
string, so `message + x` is the argument.  The fuel is the length of the
string, which no walk exceeds.
-/

namespace Bsflite

/-- `simplify_sn`: the client's copy of `imcomm_simplify_sn`. -/
def simplifySn (sn : Str) : Str := (sn.filter (· ≠ 32)).map tolower

/-- The two copies agree. -/
theorem simplifySn_eq (sn : Str) : simplifySn sn = imcommSimplifySn sn := rfl

/-! ## `strip_html` -/

/-- `strncasecmp(s, pat, strlen(pat)) == 0` -/
def startsWithCase (pat s : Str) : Bool := (s.take pat.length).map tolower = pat.map tolower

/-- A link at the front of `s`: what is written for it, and the place of the
closing quote. -/
def stripLink (s : Str) : Str × Str :=
  if 10 < s.length ∧ startsWithCase (ascii "<a href=\"") s then
    match (s.drop 9).findIdx? (· = 34) with
    | some n => (91 :: (s.drop 9).take n ++ [93, 32], s.drop (9 + n))
    | none => ([], s)
  else ([], s)

/-- An entity at the front of `s`: its character and its length. -/
def entity (s : Str) : Option (UInt8 × Nat) :=
  if 4 < s.length ∧ (ascii "&amp;").isPrefixOf s then some (38, 5)
  else if 5 < s.length ∧ (ascii "&quot;").isPrefixOf s then some (34, 6)
  else if 5 < s.length ∧ (ascii "&nbsp;").isPrefixOf s then some (32, 6)
  else if 3 < s.length ∧ (ascii "&lt;").isPrefixOf s then some (60, 4)
  else if 3 < s.length ∧ (ascii "&gt;").isPrefixOf s then some (62, 4)
  else none

/-- The loop of `strip_html`. -/
def stripHtmlLoop : Nat → Bool → Str → Str
  | fuel + 1, inhtml, c :: rest =>
    if c = 60 ∧ inhtml = false then
      let (link, s) := stripLink (c :: rest)
      if 3 < s.length ∧ startsWithCase (ascii "<br>") s then
        link ++ 10 :: stripHtmlLoop fuel inhtml (s.drop 4)
      else link ++ stripHtmlLoop fuel true (s.drop 1)
    else if inhtml then stripHtmlLoop fuel (c ≠ 62) rest
    else
      match entity (c :: rest) with
      | some (e, n) => e :: stripHtmlLoop fuel inhtml ((c :: rest).drop n)
      | none =>
        if c = 10 ∨ c = 13 then stripHtmlLoop fuel inhtml rest
        else c :: stripHtmlLoop fuel inhtml rest
  | _, _, _ => []

/-- `strip_html` -/
def stripHtml (message : Str) : Str := stripHtmlLoop message.length false message

example : stripHtml (ascii "<B>hi</b><BR>&lt;3") = ascii "hi\n<3" := by decide

/-! ## `undo_netspeak` -/

/-- `struct WordTable` -/
structure WordTable where
  orig : Str
  clean : Str

/-- `table` of `cleaner.c` -/
def table : List WordTable :=
  [⟨ascii "u", ascii "you"⟩, ⟨ascii "r", ascii "are"⟩, ⟨ascii "i", ascii "I"⟩,
    ⟨ascii "c", ascii "see"⟩, ⟨ascii "ic", ascii "I see"⟩, ⟨ascii "i'm", ascii "I'm"⟩,
    ⟨ascii "i'd", ascii "I'd"⟩, ⟨ascii "ive", ascii "I've"⟩, ⟨ascii "i've", ascii "I've"⟩,
    ⟨ascii "i'll", ascii "I'll"⟩, ⟨ascii "idk", ascii "I don't know"⟩,
    ⟨ascii "IDK", ascii "I don't know"⟩, ⟨ascii "ur", ascii "you're"⟩,
    ⟨ascii "ne1", ascii "anyone"⟩, ⟨ascii "omg", ascii "oh my god,"⟩,
    ⟨ascii "teh", ascii "the"⟩, ⟨ascii "cuz", ascii "because"⟩, ⟨ascii "hte", ascii "the"⟩,
    ⟨ascii "taht", ascii "that"⟩, ⟨ascii "funnay", ascii "funny"⟩, ⟨ascii "d00d", ascii "dude"⟩,
    ⟨ascii "dood", ascii "dude"⟩, ⟨ascii "liek", ascii "like"⟩,
    ⟨ascii "osmething", ascii "something"⟩]

/-- The characters that end a word; `none` is the end of the string. -/
def endsWord (c : Option UInt8) : Bool :=
  c = none ∨ c = some 32 ∨ c = some 46 ∨ c = some 44 ∨ c = some 63 ∨ c = some 33

/-- The entry for the word at the front of `s`. -/
def findWord (s : Str) : Option WordTable :=
  table.find? fun w => w.orig.length ≤ s.length ∧ endsWord s[w.orig.length]? ∧ w.orig.isPrefixOf s

/-- The second pass of `undo_netspeak`, after the character `prev`. -/
def undoNetspeakLoop : Nat → Option UInt8 → Str → Str
  | fuel + 1, prev, c :: rest =>
    if prev ≠ none ∧ prev ≠ some 32 then c :: undoNetspeakLoop fuel (some c) rest
    else
      match findWord (c :: rest) with
      | some w =>
        w.clean ++ undoNetspeakLoop fuel w.orig.getLast? ((c :: rest).drop w.orig.length)
      | none => c :: undoNetspeakLoop fuel (some c) rest
  | _, _, _ => []

/-- `undo_netspeak`: the string its second pass builds. -/
def undoNetspeak (orig : Str) : Str := undoNetspeakLoop orig.length none orig

example : undoNetspeak (ascii "u r, idk") = ascii "you are, I don't know" := by decide

end Bsflite
