import Bsflite.CString
import Bsflite.Login
import Bsflite.Prettyprint

/-!
# Bsflite.Config

The configuration file: `read_conf` and `bl_get_confopt` of `config.c`.

* `grammar` — the options of a file, as `config-example` documents them.
* `confoptLoop_eq` — what one call of `bl_get_confopt` takes from the file.
* `readConf_eq` — what `read_conf` makes of it.
* `conf_iff` — the files that are read by their grammar.
-/

namespace Bsflite

/-! ## options -/

/-- The tokens of the options in the table of `read_conf`. -/
inductive ConfToken where
  | username
  | password
  | proxyport
  | proxytype
  | proxy
  | singlelog
  | squelchconnect
  | squelchidle
  | squelchaway
  | respondidle
  | reportidle
  | filter
  | timestamps
  | port
  | title
  | bell
  | idletime
  | colors
  | autoreconnect
  | otr
deriving DecidableEq, Repr

/-- `ic`, the table of `read_conf`. -/
def confOptions : List (Str × ConfToken) :=
  [(ascii "username", .username), (ascii "password", .password), (ascii "proxyport", .proxyport),
    (ascii "proxytype", .proxytype), (ascii "proxy", .proxy), (ascii "single_log", .singlelog),
    (ascii "squelchconnect", .squelchconnect), (ascii "squelchidle", .squelchidle),
    (ascii "squelchaway", .squelchaway), (ascii "respond_idle_only", .respondidle),
    (ascii "report_idle", .reportidle), (ascii "netspeak_filter", .filter),
    (ascii "timestamps", .timestamps), (ascii "oscarport", .port),
    (ascii "set_window_title", .title), (ascii "bell_on_incoming", .bell),
    (ascii "idletime", .idletime), (ascii "colors", .colors),
    (ascii "auto_reconnect", .autoreconnect), (ascii "otr", .otr)]

/-- The fields of `conn` that `read_conf` sets. -/
structure ConfConn where
  configdir : Option Str
  username : Option Str
  password : Option Str
  proxyport : Int
  proxytype : ProxyType
  proxy : Option Str
  singleLog : Bool
  squelchconnect : Bool
  squelchidle : Bool
  squelchaway : Bool
  respondIdleOnly : Bool
  reportIdle : Bool
  netspeakFilter : Bool
  timestamps : Bool
  oscarport : Int
  setWindowTitle : Bool
  bellOnIncoming : Bool
  idleRepTime : Int
  colors : Bool
  autoReconnect : Int
  otr : Bool
deriving DecidableEq, Repr

/-- `bl_conf_bool` -/
def blConfBool (arg : Str) : Bool := (arg.take 4).map tolower = ascii "true"

/-- The `switch` of `read_conf`. -/
def ConfConn.set (conn : ConfConn) (c : ConfToken) (optarg : Str) : ConfConn :=
  match c with
  | .username => { conn with username := some optarg }
  | .password => { conn with password := some optarg }
  | .proxyport => { conn with proxyport := atoi optarg }
  | .proxytype =>
    if (ascii "socks5").isPrefixOf optarg then { conn with proxytype := .socks5 }
    else if (ascii "https").isPrefixOf optarg then { conn with proxytype := .https }
    else conn
  | .proxy => { conn with proxy := some optarg }
  | .singlelog => { conn with singleLog := blConfBool optarg }
  | .squelchconnect => { conn with squelchconnect := blConfBool optarg }
  | .squelchidle => { conn with squelchidle := blConfBool optarg }
  | .squelchaway => { conn with squelchaway := blConfBool optarg }
  | .respondidle => { conn with respondIdleOnly := blConfBool optarg }
  | .reportidle => { conn with reportIdle := blConfBool optarg }
  | .filter => { conn with netspeakFilter := blConfBool optarg }
  | .timestamps => { conn with timestamps := blConfBool optarg }
  | .port => { conn with oscarport := atoi optarg }
  | .title => { conn with setWindowTitle := blConfBool optarg }
  | .bell => { conn with bellOnIncoming := blConfBool optarg }
  | .idletime => { conn with idleRepTime := atoi optarg }
  | .colors => { conn with colors := blConfBool optarg }
  | .autoreconnect => { conn with autoReconnect := atoi optarg }
  | .otr => { conn with otr := blConfBool optarg }

/-! ## the file -/

/-- What `fgets` of a buffer of `n + 1` bytes stores, without the terminator,
and what is left of the stream. -/
def fgets : Nat → List UInt8 → List UInt8 × List UInt8
  | 0, stream => ([], stream)
  | _ + 1, [] => ([], [])
  | n + 1, c :: stream =>
    if c = 10 then ([c], stream)
    else
      let (line, rest) := fgets n stream
      (c :: line, rest)

/-- The files of the system, by name. -/
abbrev Files := Str → Option (List UInt8)

/-- What `bl_get_confopt` returns, with `bl_optarg`. -/
inductive ConfRet where
  | token (c : ConfToken) (optarg : Str)
  /-- -1 -/
  | eof
  /-- -2 -/
  | missing
  /-- -3 -/
  | nofile
deriving DecidableEq, Repr

/-- The loop over the options. -/
def findConfopt (buf : List UInt8) (tptr : Nat) : List (Str × ConfToken) → Except Fault ConfRet
  | [] => return .missing
  | (directive, token) :: opts => do
    let same ← comparesAt id buf 0 directive
    if same then
      let optarg ← strAt buf (tptr + 1)
      return .token token optarg
    else findConfopt buf tptr opts

/-- What `bl_get_confopt` does with a line that is no comment. -/
def confLine (buf : List UInt8) (opts : List (Str × ConfToken)) : Except Fault ConfRet := do
  let cr ← strchr buf 0 13
  let buf ← (match cr with
    | some i => storeN buf i [0]
    | none => do
      let lf ← strchr buf 0 10
      match lf with
      | some i => storeN buf i [0]
      | none => return buf)
  let tptr ← strchr buf 0 32
  match tptr with
  | none => return .missing
  | some i => findConfopt buf i opts

/-- The loop of `bl_get_confopt`, over the lines of `conf_file`. -/
def confoptLoop (opts : List (Str × ConfToken)) :
    Nat → List UInt8 → Except Fault (ConfRet × Option (List UInt8))
  | 0, _ => .error .hang
  | fuel + 1, stream => do
    let buf ← storeN (List.replicate 1024 0) 0 (List.replicate 1024 0)
    if stream = [] then return (.eof, none)
    else
      let (line, rest) := fgets 1023 stream
      let buf ← storeN buf 0 (terminated line)
      let c ← peek buf 0
      if c = 35 then confoptLoop opts fuel rest
      else
        let ret ← confLine buf opts
        return (ret, some rest)

/-- `bl_get_confopt`; the second result is `conf_file`. -/
def blGetConfopt (fopen : Files) (filename : Str) (opts : List (Str × ConfToken))
    (confFile : Option (List UInt8)) : Except Fault (ConfRet × Option (List UInt8)) :=
  match confFile with
  | some stream => confoptLoop opts (stream.length + 1) stream
  | none =>
    match fopen filename with
    | none => return (.nofile, none)
    | some stream => confoptLoop opts (stream.length + 1) stream

/-- The flags of `read_conf`, with `conn`. -/
structure ConfState where
  conn : ConfConn
  hasuser : Bool
  haspw : Bool
deriving DecidableEq, Repr

/-- One option of the file. -/
def ConfState.set (s : ConfState) (c : ConfToken) (optarg : Str) : ConfState where
  conn := s.conn.set c optarg
  hasuser := s.hasuser || c = .username
  haspw := s.haspw || c = .password

/-- What `read_conf` returns at the end. -/
def ConfState.ret (s : ConfState) : Int :=
  if s.haspw ∧ s.hasuser then 1 else if s.hasuser then 2 else 0

/-- The loop of `read_conf`; the last result is `conf_file`. -/
def readConfLoop (fopen : Files) (filename : Str) : Nat → Option (List UInt8) → ConfState →
    Except Fault (ConfConn × Int × Option (List UInt8))
  | 0, _, _ => .error .hang
  | fuel + 1, confFile, s => do
    let (c, confFile) ← blGetConfopt fopen filename confOptions confFile
    match c with
    | .eof => return (s.conn, s.ret, confFile)
    | .missing => readConfLoop fopen filename fuel confFile s
    | .nofile => return (s.conn, -1, confFile)
    | .token c optarg => readConfLoop fopen filename fuel confFile (s.set c optarg)

/-- The directory of `read_conf`, for the value of `HOME`. -/
def configdir (home : Option Str) : Str := (home.getD (ascii ".") ++ ascii "/.bsflite/").take 1023

/-- `read_conf`, with `conf_file` as it was left. -/
def readConf (home : Option Str) (fopen : Files) (confFile : Option (List UInt8))
    (conn : ConfConn) : Except Fault (ConfConn × Int × Option (List UInt8)) :=
  let conn := { conn with configdir := some (configdir home) }
  let filename := (configdir home ++ ascii "config").take 1023
  let fuel := ((confFile <|> fopen filename).getD []).length + 2
  readConfLoop fopen filename fuel confFile ⟨conn, false, false⟩

/-! ## the grammar -/

/-- A line up to its end, which may be a carriage return. -/
def lineText (line : Str) : Str := line.takeWhile fun c => c ≠ 13 ∧ c ≠ 0

/-- The text before the first blank, the text behind it, and the line is no
comment. -/
def lineParts (line : Str) : Option (Str × Str) :=
  if line.head? = some 35 then none
  else
    match (lineText line).dropWhile (· ≠ 32) with
    | [] => none
    | _ :: value => some ((lineText line).takeWhile (· ≠ 32), value)

/-- The option that a line sets: its directive is exactly one of the table. -/
def lineOption (line : Str) : Option (ConfToken × Str) :=
  (lineParts line).bind fun (name, value) =>
    (confOptions.find? fun opt => opt.1 = name).map fun opt => (opt.2, value)

/-- The options that a file sets, in order. -/
def grammar (file : List UInt8) : List (ConfToken × Str) := (segments file).filterMap lineOption

/-- What becomes of `conn`. -/
def ConfConn.setAll (conn : ConfConn) (options : List (ConfToken × Str)) : ConfConn :=
  options.foldl (fun conn o => conn.set o.1 o.2) conn

/-- 1 with a user name and a password, 2 with a user name only, 0 without. -/
def confRet (options : List (ConfToken × Str)) : Int :=
  if .username ∈ options.map Prod.fst ∧ .password ∈ options.map Prod.fst then 1
  else if .username ∈ options.map Prod.fst then 2
  else 0

/-! ## what is read -/

/-- The option that the code takes from a line: its text starts with the
directive. -/
def lineConfopt (line : Str) : Option (ConfToken × Str) :=
  (lineParts line).bind fun (name, value) =>
    (confOptions.find? fun opt => opt.1.isPrefixOf name).map fun opt => (opt.2, value)

/-- The options that the calls of `bl_get_confopt` return, up to the end of the
file. -/
def confopts (fopen : Files) (filename : Str) : Nat → Option (List UInt8) →
    Except Fault (List (ConfToken × Str))
  | 0, _ => .error .hang
  | fuel + 1, confFile => do
    let (c, confFile) ← blGetConfopt fopen filename confOptions confFile
    match c with
    | .eof => return []
    | .nofile => return []
    | .missing => confopts fopen filename fuel confFile
    | .token c optarg => do
      let rest ← confopts fopen filename fuel confFile
      return (c, optarg) :: rest

/-! ## one line -/

/-- `fgets` takes a line, and the newline behind it. -/
theorem fgets_eq {n : Nat} {stream : List UInt8} (hfit : (stream.takeWhile (· ≠ 10)).length < n) :
    ∃ eol, fgets n stream =
        (stream.takeWhile (· ≠ 10) ++ eol, (stream.dropWhile (· ≠ 10)).tail) ∧
      (eol = [10] ∨ eol = [] ∧ 10 ∉ stream) := by
  induction stream generalizing n with
  | nil =>
      obtain ⟨n, rfl⟩ := Nat.exists_eq_add_one_of_ne_zero (Nat.ne_zero_of_lt hfit)
      exact ⟨[], rfl, .inr ⟨rfl, by simp⟩⟩
  | cons c stream ih =>
      obtain ⟨n, rfl⟩ := Nat.exists_eq_add_one_of_ne_zero (Nat.ne_zero_of_lt hfit)
      by_cases hc : c = 10
      · exact ⟨[10], by simp [fgets, hc], .inl rfl⟩
      · obtain ⟨eol, hline, heol⟩ := ih (n := n) (by simpa [hc] using hfit)
        refine ⟨eol, by simp [fgets, hc, hline], heol.imp_right fun h => ⟨h.1, ?_⟩⟩
        simp [h.2, Ne.symm hc]

/-- A NUL stored at the first of the characters ends the string there. -/
theorem cut_eq {c : UInt8} {s : Str} {buf : List UInt8} (hheld : HoldsStr buf s) :
    ∃ buf', storeN buf (s.takeWhile (· ≠ c)).length [0] = .ok buf' ∧
      HoldsStr buf' (s.takeWhile (· ≠ c)) := by
  have hpre : s.takeWhile (· ≠ c) <+: buf :=
    (List.takeWhile_prefix _).trans ((List.prefix_append s [0]).trans hheld.front)
  have hle := (List.takeWhile_prefix (l := s) (fun b => decide (b ≠ c))).length_le
  obtain ⟨buf', hstore, hheld', -⟩ := @storeN_terminated buf _ [] _
    (List.prefix_iff_eq_take.mp hpre).symm
    (by
      rw [List.append_nil]
      exact fun h => hheld.no_nul ((List.takeWhile_prefix _).subset h))
    (by
      have hlt := hheld.length_lt
      rw [List.length_nil]
      omega)
  rw [List.append_nil] at hheld'
  exact ⟨buf', hstore, hheld'⟩

/-- The first option whose directive the text starts with. -/
theorem findConfopt_eq {text : Str} {buf : List UInt8} (hheld : HoldsStr buf text) {tptr : Nat}
    (htptr : tptr < text.length) (opts : List (Str × ConfToken)) (hopts : ∀ o ∈ opts, 0 ∉ o.1) :
    findConfopt buf tptr opts = .ok (match opts.find? fun o => o.1.isPrefixOf text with
      | some o => .token o.2 (text.drop (tptr + 1))
      | none => .missing) := by
  have harg : strAt buf (tptr + 1) = .ok (text.drop (tptr + 1)) := hheld.strAt_drop htptr
  induction opts with
  | nil => rfl
  | cons o opts ih =>
      rw [List.forall_mem_cons] at hopts
      rw [findConfopt, hheld.comparesAt_eq hopts.1, ok_bind, List.find?_cons]
      by_cases hsame : o.1.isPrefixOf text = true
      · rw [if_pos hsame, harg, hsame]
        rfl
      · rw [if_neg hsame, ih hopts.2, Bool.eq_false_iff.mpr hsame]

/-- The directives have neither blanks nor NULs. -/
theorem directive_plain : ∀ o ∈ confOptions, 0 ∉ o.1 ∧ 32 ∉ o.1 := by decide +kernel

/-- A text starts with a directive when its part before the first blank does. -/
theorem directive_isPrefixOf {d text : Str} (hd : 32 ∉ d) :
    d.isPrefixOf (text.takeWhile (· ≠ 32)) = d.isPrefixOf text := by
  rw [Bool.eq_iff_iff, List.isPrefixOf_iff_prefix, List.isPrefixOf_iff_prefix]
  constructor
  · exact fun h => h.trans (List.takeWhile_prefix _)
  · rintro ⟨tail, rfl⟩
    rw [List.takeWhile_append_of_pos (forall_ne_of_notMem hd)]
    exact List.prefix_append _ _

/-- The line end that is cut off, whichever it is. -/
theorem cut_lineText {line eol : Str} (hline : 10 ∉ line) (heol : eol = [10] ∨ eol = []) :
    (if 13 ∈ cstr (line ++ eol) then (cstr (line ++ eol)).takeWhile (· ≠ 13)
      else (cstr (line ++ eol)).takeWhile (· ≠ 10)) = lineText line := by
  have htext : lineText line = (cstr line).takeWhile (· ≠ 13) := by
    simp [lineText, cstr, List.takeWhile_takeWhile]
  have heol0 : 0 ∉ eol := by
    rcases heol with rfl | rfl <;> simp
  have hplain (s : Str) (h10 : 10 ∉ s) :
      (if 13 ∈ s then s.takeWhile (· ≠ 13) else s.takeWhile (· ≠ 10)) = s.takeWhile (· ≠ 13) := by
    split
    · rfl
    · next h13 => rw [takeWhile_ne_of_notMem h10, takeWhile_ne_of_notMem h13]
  by_cases h0 : 0 ∈ line
  · obtain ⟨front, rest, rfl, hfront⟩ := List.eq_append_cons_of_mem h0
    have hcstr (tail : Str) : cstr (front ++ 0 :: tail) = front := takeWhile_ne_append hfront tail
    rw [htext, List.append_assoc, List.cons_append, hcstr, hcstr]
    exact hplain front fun h => hline (List.mem_append_left _ h)
  · rw [htext, cstr_of_no_nul h0, cstr_of_no_nul (by simp [h0, heol0])]
    rcases heol with rfl | rfl
    · by_cases h13 : 13 ∈ line
      · obtain ⟨front, rest, rfl, hfront⟩ := List.eq_append_cons_of_mem h13
        rw [if_pos (by simp), List.append_assoc, List.cons_append, takeWhile_ne_append hfront,
          takeWhile_ne_append hfront]
      · rw [if_neg (by simp [h13]), takeWhile_ne_append hline, takeWhile_ne_of_notMem h13]
    · rw [List.append_nil]
      exact hplain line hline

/-- What `bl_get_confopt` returns for a line. -/
def lineRet (line : Str) : ConfRet :=
  match lineConfopt line with
  | some o => .token o.1 o.2
  | none => .missing

/-- A line that is no comment. -/
theorem confLine_eq {buf line eol : Str} (hline : 10 ∉ line) (heol : eol = [10] ∨ eol = [])
    (hcomment : line.head? ≠ some 35) (hheld : HoldsStr buf (cstr (line ++ eol))) :
    confLine buf confOptions = .ok (lineRet line) := by
  have hcut := cut_lineText hline heol
  generalize cstr (line ++ eol) = s at hheld hcut
  obtain ⟨buf', hbuf', hheld'⟩ : ∃ buf', (match (if 13 ∈ s then
      some (s.takeWhile (· ≠ 13)).length else none : Option Nat) with
      | some i => storeN buf i [0]
      | none => do
        let lf ← strchr buf 0 10
        match lf with
        | some i => storeN buf i [0]
        | none => return buf) = .ok buf' ∧ HoldsStr buf' (lineText line) := by
    rw [← hcut]
    by_cases h13 : 13 ∈ s
    · simpa only [h13, if_true] using cut_eq hheld
    · simp only [h13, if_false]
      rw [hheld.strchr_eq (by decide), ok_bind]
      by_cases h10 : 10 ∈ s
      · simpa only [h10, if_true] using cut_eq hheld
      · simp only [h10, if_false]
        exact ⟨buf, rfl, by rwa [takeWhile_ne_of_notMem h10]⟩
  rw [confLine, hheld.strchr_eq (by decide), ok_bind, hbuf', ok_bind,
    hheld'.strchr_eq (by decide), ok_bind, lineRet, lineConfopt, lineParts,
    if_neg hcomment]
  by_cases hblank : 32 ∈ lineText line
  · obtain ⟨name, value, htext, hname⟩ := List.eq_append_cons_of_mem hblank
    have hfind : (confOptions.find? fun opt => opt.1.isPrefixOf name) =
        confOptions.find? fun opt => opt.1.isPrefixOf (lineText line) := by
      refine List.find?_congr fun opt hopt => ?_
      rw [htext, ← @directive_isPrefixOf opt.1 (name ++ 32 :: value) (directive_plain opt hopt).2,
        takeWhile_ne_append hname]
    rw [if_pos hblank]
    simp only
    rw [findConfopt_eq hheld' _ _ fun opt hopt => (directive_plain opt hopt).1, ← hfind]
    · have hvalue : (name ++ 32 :: value).drop (name.length + 1) = value := by simp
      rw [htext, takeWhile_ne_append hname, dropWhile_ne_append hname, hvalue, Option.bind_some]
      cases confOptions.find? fun opt => opt.1.isPrefixOf name <;> rfl
    · rw [htext, takeWhile_ne_append hname]
      simp
  · rw [if_neg hblank, List.dropWhile_eq_nil_iff.mpr (forall_ne_of_notMem hblank)]
    rfl

/-- One line of the stream. -/
theorem confoptLoop_step {stream : List UInt8} (hne : stream ≠ [])
    (hfit : (stream.takeWhile (· ≠ 10)).length ≤ 1022) (fuel : Nat) :
    confoptLoop confOptions (fuel + 1) stream =
      if (stream.takeWhile (· ≠ 10)).head? = some 35 then
        confoptLoop confOptions fuel (stream.dropWhile (· ≠ 10)).tail
      else
        .ok (lineRet (stream.takeWhile (· ≠ 10)), some (stream.dropWhile (· ≠ 10)).tail) := by
  obtain ⟨eol, hfgets, heol⟩ := fgets_eq (Nat.lt_succ_of_le hfit)
  have hline : 10 ∉ stream.takeWhile (· ≠ 10) := by
    intro h
    simpa using List.mem_takeWhile_imp h
  rw [confoptLoop, storeN_zeros List.length_replicate, ok_bind, if_neg hne, hfgets]
  generalize stream.takeWhile (· ≠ 10) = line at hfit hline
  generalize (stream.dropWhile (· ≠ 10)).tail = rest
  replace heol : eol = [10] ∨ eol = [] := heol.imp_right And.left
  have hroom : 0 + (terminated (line ++ eol)).length ≤
      (List.replicate 1024 (0 : UInt8)).length := by
    rw [length_terminated, List.length_append, List.length_replicate]
    rcases heol with rfl | rfl <;> simp <;> omega
  obtain ⟨buf, hstore, -, hfront⟩ := storeN_take (terminated (line ++ eol)) List.take_zero hroom
  have hchunk : terminated (line ++ eol) <+: buf := by
    rw [List.nil_append, Nat.zero_add] at hfront
    rw [← hfront]
    exact List.take_prefix _ _
  have hpeek : ∃ c, peek buf 0 = .ok c ∧ (c = 35 ↔ line.head? = some 35) := by
    obtain ⟨tail, rfl⟩ := hchunk
    cases line with
    | nil => rcases heol with rfl | rfl <;> exact ⟨_, rfl, by simp⟩
    | cons c line => exact ⟨c, rfl, by simp⟩
  obtain ⟨c, hpeek, hc⟩ := hpeek
  simp only [hstore, hpeek, ok_bind, hc]
  split
  · rfl
  · next hcomment =>
      have hheld : HoldsStr buf (cstr (line ++ eol)) :=
        ⟨(holdsStr_cstr _).no_nul, (holdsStr_cstr _).front.trans hchunk⟩
      rw [confLine_eq hline heol hcomment hheld]
      rfl

/-! ## the whole file -/

/-- The options that are taken from a file. -/
def taken (file : List UInt8) : List (ConfToken × Str) := (segments file).filterMap lineConfopt

/-- No line is longer than the buffer of `bl_get_confopt`. -/
def LinesFit (file : List UInt8) : Prop := ∀ line ∈ segments file, line.length ≤ 1022

/-- The option of the first line, and those of the lines behind it. -/
theorem taken_eq {stream : List UInt8} (hne : stream ≠ []) :
    taken stream = (lineConfopt (stream.takeWhile (· ≠ 10))).toList ++
      taken (stream.dropWhile (· ≠ 10)).tail := by
  rw [taken, segments_eq hne, List.filterMap_cons, taken]
  cases lineConfopt (stream.takeWhile (· ≠ 10)) <;> rfl

theorem length_rest_lt {stream : List UInt8} (hne : stream ≠ []) :
    (stream.dropWhile (· ≠ 10)).tail.length < stream.length := by
  have hle := (List.dropWhile_suffix (l := stream) (fun c => decide (c ≠ 10))).length_le
  have hpos := List.length_pos_iff.mpr hne
  rw [List.length_tail]
  omega

theorem LinesFit.rest {stream : List UInt8} (h : LinesFit stream) (hne : stream ≠ []) :
    (stream.takeWhile (· ≠ 10)).length ≤ 1022 ∧ LinesFit (stream.dropWhile (· ≠ 10)).tail := by
  rw [LinesFit, segments_eq hne, List.forall_mem_cons] at h
  exact h

/-- One call: the end of the file, or a line that is no comment. -/
theorem confoptLoop_eq {stream : List UInt8} (hlines : LinesFit stream) {fuel : Nat}
    (hfuel : stream.length < fuel) :
    confoptLoop confOptions fuel stream = .ok (.eof, none) ∧ taken stream = [] ∨
    ∃ line rest, confoptLoop confOptions fuel stream = .ok (lineRet line, some rest) ∧
      rest.length < stream.length ∧ LinesFit rest ∧
      taken stream = (lineConfopt line).toList ++ taken rest := by
  induction fuel generalizing stream with
  | zero => cases hfuel
  | succ fuel ih =>
      by_cases hne : stream = []
      · subst hne
        left
        rw [confoptLoop, storeN_zeros List.length_replicate]
        exact ⟨rfl, by simp [taken]⟩
      obtain ⟨hfit, hrest⟩ := hlines.rest hne
      have hlt := length_rest_lt hne
      rw [confoptLoop_step hne hfit fuel, taken_eq hne]
      split
      · next hcomment =>
          have hnone : lineConfopt (stream.takeWhile (· ≠ 10)) = none := by
            rw [lineConfopt, lineParts, if_pos hcomment]
            rfl
          rw [hnone, Option.toList_none, List.nil_append]
          refine (ih hrest (by omega)).imp_right ?_
          rintro ⟨line, rest, hloop, hlen, h⟩
          exact ⟨line, rest, hloop, by omega, h⟩
      · exact .inr ⟨_, _, rfl, hlt, hrest, rfl⟩

/-- The calls return the options in order. -/
theorem confopts_eq (fopen : Files) (filename : Str) {stream : List UInt8}
    (hlines : LinesFit stream) {fuel : Nat} (hfuel : stream.length < fuel) :
    confopts fopen filename fuel (some stream) = .ok (taken stream) := by
  induction fuel generalizing stream with
  | zero => cases hfuel
  | succ fuel ih =>
      rw [confopts, blGetConfopt]
      obtain ⟨hloop, htaken⟩ | ⟨line, rest, hloop, hlen, hrest, htaken⟩ :=
        confoptLoop_eq hlines (Nat.lt_succ_self stream.length)
      · rw [hloop, htaken]
        rfl
      · have hgo := ih hrest (by omega)
        rw [hloop, ok_bind, htaken, lineRet]
        cases lineConfopt line with
        | none => exact hgo
        | some o =>
            simp only [hgo]
            rfl

/-- What the options make of the flags and of `conn`. -/
def ConfState.setAll (s : ConfState) (options : List (ConfToken × Str)) : ConfState :=
  options.foldl (fun s o => s.set o.1 o.2) s

theorem readConfLoop_eq (fopen : Files) (filename : Str) {stream : List UInt8}
    (hlines : LinesFit stream) {fuel : Nat} (hfuel : stream.length < fuel) (s : ConfState) :
    readConfLoop fopen filename fuel (some stream) s =
      .ok ((s.setAll (taken stream)).conn, (s.setAll (taken stream)).ret, none) := by
  induction fuel generalizing stream s with
  | zero => cases hfuel
  | succ fuel ih =>
      rw [readConfLoop, blGetConfopt]
      obtain ⟨hloop, htaken⟩ | ⟨line, rest, hloop, hlen, hrest, htaken⟩ :=
        confoptLoop_eq hlines (Nat.lt_succ_self stream.length)
      · rw [hloop, htaken]
        rfl
      · have hgo := ih hrest (by omega)
        rw [hloop, ok_bind, htaken, lineRet]
        cases lineConfopt line with
        | none => exact hgo s
        | some o => exact hgo (s.set o.1 o.2)

/-- The fields and the flags, one by one. -/
theorem ConfState.setAll_eq (s : ConfState) (options : List (ConfToken × Str)) :
    s.setAll options = ⟨s.conn.setAll options,
      s.hasuser || decide (.username ∈ options.map Prod.fst),
      s.haspw || decide (.password ∈ options.map Prod.fst)⟩ := by
  induction options generalizing s with
  | nil => simp [ConfState.setAll, ConfConn.setAll]
  | cons o options ih =>
      rw [ConfState.setAll, List.foldl_cons, ← ConfState.setAll, ih]
      rw [ConfState.set]
      simp only [ConfConn.setAll, List.foldl_cons, List.map_cons, List.mem_cons, Bool.decide_or,
        Bool.or_assoc, eq_comm]

/-- The first call opens the file. -/
theorem blGetConfopt_open {fopen : Files} {filename : Str} {file : List UInt8}
    (hfile : fopen filename = some file) :
    blGetConfopt fopen filename confOptions none =
      blGetConfopt fopen filename confOptions (some file) := by
  rw [blGetConfopt.eq_def]
  simp only [hfile]
  rfl

/-- The flags decide what is returned. -/
theorem ConfState.ret_setAll (conn : ConfConn) (options : List (ConfToken × Str)) :
    ((⟨conn, false, false⟩ : ConfState).setAll options).ret = confRet options := by
  rw [ConfState.setAll_eq, Bool.false_or, Bool.false_or]
  simp only [ConfState.ret, confRet, decide_eq_true_eq, and_comm]

/-- The file is opened, read to its end and closed. -/
theorem readConf_eq {home : Option Str} {fopen : Files} {file : List UInt8}
    (hfile : fopen ((configdir home ++ ascii "config").take 1023) = some file)
    (hlines : LinesFit file) (conn : ConfConn) :
    readConf home fopen none conn =
      .ok (({ conn with configdir := some (configdir home) } : ConfConn).setAll (taken file),
        confRet (taken file), none) := by
  rw [readConf]
  generalize ({ conn with configdir := some (configdir home) } : ConfConn) = conn'
  generalize (configdir home ++ ascii "config").take 1023 = filename at hfile
  have hloop := readConfLoop_eq fopen filename hlines
    (Nat.lt_add_of_pos_right Nat.two_pos) ⟨conn', false, false⟩
  rw [readConfLoop, ← blGetConfopt_open hfile, ← readConfLoop, ConfState.ret_setAll,
    ConfState.setAll_eq] at hloop
  rw [hfile]
  exact hloop

/-! ## the two languages -/

/-- A directive of the table is found by its own entry. -/
theorem find_directive : ∀ opt ∈ confOptions,
    (confOptions.find? fun o => o.1.isPrefixOf opt.1) =
      confOptions.find? fun o => o.1 = opt.1 := by
  decide +kernel

/-- A line that sets an option is taken. -/
theorem lineConfopt_of_lineOption {line : Str} {o : ConfToken × Str}
    (h : lineOption line = some o) : lineConfopt line = some o := by
  rw [lineOption, Option.bind_eq_some_iff] at h
  obtain ⟨⟨name, value⟩, hparts, hfind⟩ := h
  rw [lineConfopt, hparts, Option.bind_some, ← hfind]
  obtain ⟨opt, hopt, -⟩ := Option.map_eq_some_iff.mp hfind
  have hname : opt.1 = name := by simpa using List.find?_some hopt
  simp only [← hname, find_directive opt (List.mem_of_find?_eq_some hopt)]

/-- When a map that is defined on more gives no more. -/
theorem filterMap_eq_iff {α β : Type} {f g : α → Option β} (h : ∀ a b, g a = some b → f a = some b)
    (l : List α) : l.filterMap f = l.filterMap g ↔ ∀ a ∈ l, f a = g a := by
  refine ⟨fun heq => ?_, fun heq => List.filterMap_congr heq⟩
  induction l with
  | nil => simp
  | cons a l ih =>
      rw [List.filterMap_cons, List.filterMap_cons] at heq
      cases hg : g a with
      | some b =>
          rw [h a b hg, hg] at heq
          exact List.forall_mem_cons.mpr ⟨(h a b hg).trans hg.symm, ih (List.cons.inj heq).2⟩
      | none =>
          cases hf : f a with
          | none =>
              rw [hf, hg] at heq
              exact List.forall_mem_cons.mpr ⟨hf.trans hg.symm, ih heq⟩
          | some b =>
              -- one more than the elements that are left
              rw [hf, hg] at heq
              have hlen := congrArg List.length heq
              have hmono : l.countP (fun a => (g a).isSome) ≤ l.countP fun a => (f a).isSome := by
                refine List.countP_mono_left fun a _ hsome => ?_
                obtain ⟨b, hb⟩ := Option.isSome_iff_exists.mp hsome
                rw [h a b hb]
                rfl
              simp only [List.length_cons, List.length_filterMap_eq_countP] at hlen
              omega

/-- Both read the line alike unless its text only starts with a directive. -/
theorem lineConfopt_eq_iff (line : Str) : lineConfopt line = lineOption line ↔
    ∀ parts ∈ lineParts line, (∃ opt ∈ confOptions, opt.1 <+: parts.1) →
      ∃ opt ∈ confOptions, opt.1 = parts.1 := by
  cases hparts : lineParts line with
  | none => simp [lineConfopt, lineOption, hparts]
  | some parts =>
      have hone (P : Str × Str → Prop) : (∀ p ∈ some parts, P p) ↔ P parts := by simp
      rw [hone]
      constructor
      · rintro heq ⟨opt, hopt, hpre⟩
        by_contra hno
        have hnone : lineOption line = none := by
          rw [lineOption, hparts, Option.bind_some, Option.map_eq_none_iff, List.find?_eq_none]
          exact fun opt hopt hname => hno ⟨opt, hopt, decide_eq_true_iff.mp hname⟩
        rw [hnone, lineConfopt, hparts, Option.bind_some, Option.map_eq_none_iff,
          List.find?_eq_none] at heq
        exact heq opt hopt (List.isPrefixOf_iff_prefix.mpr hpre)
      · intro h
        by_cases hpre : ∃ opt ∈ confOptions, opt.1 <+: parts.1
        · obtain ⟨opt, hopt, hname⟩ := h hpre
          have hfind := find_directive opt hopt
          rw [hname] at hfind
          simp only [lineConfopt, lineOption, hparts, Option.bind_some, hfind]
        · have hnone : (confOptions.find? fun o => o.1.isPrefixOf parts.1) = none := by
            simpa using hpre
          have hnone' : (confOptions.find? fun o => o.1 = parts.1) = none := by
            rw [List.find?_eq_none]
            intro opt hopt hname
            exact hpre ⟨opt, hopt, (decide_eq_true_iff.mp hname) ▸ List.prefix_rfl⟩
          simp only [lineConfopt, lineOption, hparts, Option.bind_some, hnone, hnone',
            Option.map_none]

/-- The file is read as its grammar says: these lines take effect, in order, and
this becomes of `conn` and of the result. -/
structure ReadByGrammar (file : List UInt8) : Prop where
  options : ∀ (fopen : Files) (filename : Str), fopen filename = some file →
    confopts fopen filename (file.length + 2) none = .ok (grammar file)
  result : ∀ (home : Option Str) (fopen : Files) (conn : ConfConn),
    fopen ((configdir home ++ ascii "config").take 1023) = some file →
    readConf home fopen none conn =
      .ok (({ conn with configdir := some (configdir home) } : ConfConn).setAll (grammar file),
        confRet (grammar file), none)

/-- A file is read by its grammar exactly when no line has, before its first
blank, a text that starts with a directive without being one.  That it has to
be so is seen from the lines that take effect; what becomes of `conn` may be
right by chance, when a later line sets the same field. -/
theorem conf_iff (file : List UInt8) (hlines : ∀ line ∈ segments file, line.length ≤ 1022) :
    ReadByGrammar file ↔
      ∀ line ∈ segments file, ∀ parts ∈ lineParts line,
        (∃ opt ∈ confOptions, opt.1 <+: parts.1) → ∃ opt ∈ confOptions, opt.1 = parts.1 := by
  have hopts (fopen : Files) (filename : Str) (hfile : fopen filename = some file) :
      confopts fopen filename (file.length + 2) none = .ok (taken file) := by
    rw [← confopts_eq fopen filename hlines (Nat.lt_add_of_pos_right Nat.two_pos), confopts,
      blGetConfopt_open hfile, ← confopts]
  have hiff : taken file = grammar file ↔
      ∀ line ∈ segments file, lineConfopt line = lineOption line :=
    filterMap_eq_iff (fun _ _ => lineConfopt_of_lineOption) _
  simp only [← lineConfopt_eq_iff, ← hiff]
  constructor
  · intro h
    have hread := h.options (fun _ => some file) [] rfl
    exact Except.ok.inj ((hopts (fun _ => some file) [] rfl).symm.trans hread)
  · intro h
    refine ⟨fun fopen filename hfile => ?_, fun home fopen conn hfile => ?_⟩
    · rw [hopts fopen filename hfile, h]
    · rw [readConf_eq hfile hlines, h]

theorem conf_iff_bob : ReadByGrammar (ascii "# login\nusername bob\r\nproxyport 1080\ncolors\n") :=
  (conf_iff _ (by decide +kernel)).2 (by decide +kernel)

/-- `conn` as `main` sets it up before it reads the file. -/
def blankConn : ConfConn where
  configdir := none
  username := none
  password := none
  proxyport := 0
  proxytype := .none
  proxy := none
  singleLog := false
  squelchconnect := false
  squelchidle := false
  squelchaway := false
  respondIdleOnly := false
  reportIdle := true
  netspeakFilter := false
  timestamps := true
  oscarport := 0
  setWindowTitle := false
  bellOnIncoming := false
  idleRepTime := 600
  colors := false
  autoReconnect := 0
  otr := false

/-- `usernamex` is no directive, but it sets the user name, and the result is 2
where it should be 0. -/
theorem conf_usernamex :
    ¬ ReadByGrammar (ascii "usernamex bob\n") ∧
      (readConf none (fun _ => some (ascii "usernamex bob\n")) none blankConn).map
          (fun r => (r.1.username, r.2.1)) = .ok (some (ascii "bob"), 2) ∧
      (blankConn.setAll (grammar (ascii "usernamex bob\n"))).username = none ∧
      confRet (grammar (ascii "usernamex bob\n")) = 0 := by
  have hread : (readConf none (fun _ => some (ascii "usernamex bob\n")) none blankConn).map
      (fun r => (r.1.username, r.2.1)) = .ok (some (ascii "bob"), 2) := by decide +kernel
  have hret : confRet (grammar (ascii "usernamex bob\n")) = 0 := by decide +kernel
  refine ⟨fun h => ?_, hread, by decide +kernel, hret⟩
  rw [h.result none (fun _ => some (ascii "usernamex bob\n")) blankConn rfl] at hread
  have htwo : confRet (grammar (ascii "usernamex bob\n")) = 2 :=
    congrArg Prod.snd (Except.ok.inj hread)
  rw [hret] at htwo
  cases htwo

/-- A later line hides the mistake. -/
example : (readConf none (fun _ => some (ascii "usernamex bob\nusername al\n")) none blankConn).map
    (fun r => (r.1, r.2.1)) =
      .ok (({ blankConn with configdir := some (configdir none) } : ConfConn).setAll
        (grammar (ascii "usernamex bob\nusername al\n")),
        confRet (grammar (ascii "usernamex bob\nusername al\n"))) := by decide +kernel

end Bsflite
