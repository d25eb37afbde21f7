import Mathlib.Data.List.Nodup
import Mathlib.Data.List.Sort

/-!
# Bsflite.Keyed

Two lists of keyed values that hold the same: one sorted by key, the other
in any order.  The elements may be of different types, as long as a key and a
value can be read off each.

* `Couples` — the coupling, and what it says about single elements.
* `Couples.insert`, `Couples.update`, `Couples.remove` — what keeps it.

And one sorted list that changes at single keys:

* `lookup_ext` — it is what a search for each key finds.
* `Alters` — a change at one key, `Alters.comm` — changes at different keys
  commute.
-/

namespace Bsflite.Keyed

variable {α β κ ν : Type}

section
variable [LT κ] (kx : α → κ) (vx : α → ν) (ky : β → κ) (vy : β → ν)

/-- `xs` is strictly sorted by its keys, and `ys` has the same keys with the
same values. -/
structure Couples (xs : List α) (ys : List β) : Prop where
  sorted : (xs.map kx).Pairwise (· < ·)
  entries : (xs.map fun x => (kx x, vx x)).Perm (ys.map fun y => (ky y, vy y))

end

/-- Around an element of a list with different keys there are other keys. -/
theorem ne_of_nodup {k : α → κ} {as bs : List α} {x : α} (h : ((as ++ x :: bs).map k).Nodup) :
    (∀ a ∈ as, k a ≠ k x) ∧ ∀ b ∈ bs, k b ≠ k x := by
  rw [List.map_append, List.map_cons, List.nodup_append, List.nodup_cons] at h
  obtain ⟨-, ⟨hx, -⟩, hcross⟩ := h
  constructor
  · intro a ha
    exact hcross (k a) (List.mem_map.mpr ⟨a, ha, rfl⟩) (k x) List.mem_cons_self
  · intro b hb heq
    exact hx (List.mem_map.mpr ⟨b, hb, heq⟩)

/-- The keys ascend. -/
def Ascends [LT κ] (key : α → κ) (xs : List α) : Prop := (xs.map key).Pairwise (· < ·)

theorem Ascends.nodup [LT κ] [LE κ] [Std.LawfulOrderLT κ] {key : α → κ} {xs : List α}
    (h : Ascends key xs) : (xs.map key).Nodup := by
  apply List.Pairwise.imp _ h
  intro a b hlt heq
  rw [heq] at hlt
  exact Std.lt_irrefl hlt

namespace Couples

section
variable [LT κ] {kx : α → κ} {vx : α → ν} {ky : β → κ} {vy : β → ν} {xs : List α} {ys : List β}

theorem nil : Couples kx vx ky vy [] [] := ⟨List.Pairwise.nil, List.Perm.nil⟩

/-- The keys are the same. -/
theorem keys_perm (h : Couples kx vx ky vy xs ys) : (xs.map kx).Perm (ys.map ky) := by
  have hkeys := h.entries.map Prod.fst
  rwa [List.map_map, List.map_map] at hkeys

/-- A key that is on one side only is on none. -/
theorem notMem_left (h : Couples kx vx ky vy xs ys) {k : κ} (hk : ∀ y ∈ ys, ky y ≠ k) :
    ∀ x ∈ xs, kx x ≠ k := by
  intro x hx heq
  have hmem : kx x ∈ ys.map ky := h.keys_perm.mem_iff.mp (List.mem_map.mpr ⟨x, hx, rfl⟩)
  obtain ⟨y, hy, hky⟩ := List.mem_map.mp hmem
  exact hk y hy (hky.trans heq)

/-- Only the keys and the values of the right side matter. -/
theorem congr_right {ys' : List β} (h : Couples kx vx ky vy xs ys)
    (hsame : ys'.map (fun y => (ky y, vy y)) = ys.map fun y => (ky y, vy y)) :
    Couples kx vx ky vy xs ys' :=
  ⟨h.sorted, hsame ▸ h.entries⟩

theorem length_eq (h : Couples kx vx ky vy xs ys) : xs.length = ys.length := by
  simpa using h.keys_perm.length_eq

end

section
variable [LT κ] [LE κ] [Std.LawfulOrderLT κ]
  {kx : α → κ} {vx : α → ν} {ky : β → κ} {vy : β → ν} {xs : List α} {ys : List β}

theorem nodup_left (h : Couples kx vx ky vy xs ys) : (xs.map kx).Nodup := Ascends.nodup h.sorted

theorem nodup_right (h : Couples kx vx ky vy xs ys) : (ys.map ky).Nodup :=
  h.keys_perm.nodup_iff.mp h.nodup_left

/-- A key on the right splits both sides, and is nowhere else. -/
theorem split (h : Couples kx vx ky vy xs ys) {y : β} (hy : y ∈ ys) :
    ∃ as x bs cs ds, xs = as ++ x :: bs ∧ ys = cs ++ y :: ds ∧ kx x = ky y ∧
      (∀ a ∈ as, kx a ≠ ky y) ∧ (∀ c ∈ cs, ky c ≠ ky y) ∧ ∀ d ∈ ds, ky d ≠ ky y := by
  have hmem : ky y ∈ xs.map kx := h.keys_perm.mem_iff.mpr (List.mem_map.mpr ⟨y, hy, rfl⟩)
  obtain ⟨x, hx, hkey⟩ := List.mem_map.mp hmem
  obtain ⟨as, bs, rfl⟩ := List.append_of_mem hx
  obtain ⟨cs, ds, rfl⟩ := List.append_of_mem hy
  obtain ⟨has, -⟩ := ne_of_nodup h.nodup_left
  obtain ⟨hcs, hds⟩ := ne_of_nodup h.nodup_right
  exact ⟨as, x, bs, cs, ds, rfl, rfl, hkey, fun a ha => hkey ▸ has a ha, hcs, hds⟩

/-- Elements with one key have one value. -/
theorem value_eq (h : Couples kx vx ky vy xs ys) {x : α} {y : β} (hx : x ∈ xs) (hy : y ∈ ys)
    (hkey : kx x = ky y) : vx x = vy y := by
  have hentry : (kx x, vx x) ∈ ys.map fun y => (ky y, vy y) :=
    h.entries.mem_iff.mp (List.mem_map.mpr ⟨x, hx, rfl⟩)
  obtain ⟨y', hy', heq⟩ := List.mem_map.mp hentry
  have hsame : y' = y := by
    apply List.inj_on_of_nodup_map h.nodup_right hy' hy
    rw [← hkey]
    exact congrArg Prod.fst heq
  rw [hsame] at heq
  exact (congrArg Prod.snd heq).symm

/-- A new key goes in front of the first greater one on the sorted side. -/
theorem insert [Std.IsLinearOrder κ] {as bs : List α} (h : Couples kx vx ky vy (as ++ bs) ys)
    {x : α} {y : β} (hkey : kx x = ky y) (hvalue : vx x = vy y) (hnew : kx x ∉ (as ++ bs).map kx)
    (hleft : ∀ a ∈ as, ¬ kx x < kx a) (hright : ∀ b ∈ bs.head?, kx x < kx b) :
    Couples kx vx ky vy (as ++ x :: bs) (ys ++ [y]) := by
  have hsorted := h.sorted
  rw [List.map_append, List.pairwise_append] at hsorted
  obtain ⟨has, hbs, hcross⟩ := hsorted
  have hbelow : ∀ k ∈ as.map kx, k < kx x := by
    intro k hk
    obtain ⟨a, ha, rfl⟩ := List.mem_map.mp hk
    have hne : kx a ≠ kx x :=
      fun heq => hnew (List.mem_map.mpr ⟨a, List.mem_append_left bs ha, heq⟩)
    exact Std.lt_of_le_of_ne (Std.not_lt.mp (hleft a ha)) hne
  have habove : ∀ k ∈ bs.map kx, kx x < k := by
    cases bs with
    | nil => simp
    | cons b bs =>
        have hfirst : kx x < kx b := hright b rfl
        rw [List.map_cons, List.pairwise_cons] at hbs
        intro k hk
        rcases List.mem_cons.mp hk with rfl | hk
        · exact hfirst
        · exact Std.lt_trans hfirst (hbs.1 k hk)
  constructor
  · rw [List.map_append, List.map_cons, List.pairwise_append, List.pairwise_cons]
    refine ⟨has, ⟨habove, hbs⟩, fun k hk k' hk' => ?_⟩
    rcases List.mem_cons.mp hk' with rfl | hk'
    · exact hbelow k hk
    · exact hcross k hk k' hk'
  · have hentries := (h.entries.cons (kx x, vx x))
    have hright : (ys ++ [y]).Perm (y :: ys) := List.perm_append_singleton y ys
    calc ((as ++ x :: bs).map fun x => (kx x, vx x)).Perm
          ((x :: (as ++ bs)).map fun x => (kx x, vx x)) := List.perm_middle.map _
      _ |>.Perm ((y :: ys).map fun y => (ky y, vy y)) := by
          rw [List.map_cons, List.map_cons, ← hkey, ← hvalue]
          exact hentries
      _ |>.Perm ((ys ++ [y]).map fun y => (ky y, vy y)) := hright.symm.map _

/-- What is left when a key leaves both sides. -/
theorem rest {as bs : List α} {cs ds : List β} {x : α} {y : β}
    (h : Couples kx vx ky vy (as ++ x :: bs) (cs ++ y :: ds)) (hkey : kx x = ky y) :
    ((as ++ bs).map fun x => (kx x, vx x)).Perm ((cs ++ ds).map fun y => (ky y, vy y)) := by
  have hvalue := h.value_eq (List.mem_append_right as List.mem_cons_self)
    (List.mem_append_right cs List.mem_cons_self) hkey
  have hentries := (((List.perm_middle.map _).symm.trans h.entries).trans (List.perm_middle.map _))
  rw [List.map_cons, List.map_cons, ← hkey, ← hvalue] at hentries
  exact hentries.cons_inv

/-- A change of the values of one key. -/
theorem update {as bs : List α} {cs ds : List β} {x x' : α} {y y' : β}
    (h : Couples kx vx ky vy (as ++ x :: bs) (cs ++ y :: ds)) (hkey : kx x = ky y)
    (hx : kx x' = kx x) (hy : ky y' = ky y) (hvalue : vx x' = vy y') :
    Couples kx vx ky vy (as ++ x' :: bs) (cs ++ y' :: ds) := by
  constructor
  · have hsorted := h.sorted
    rw [List.map_append, List.map_cons] at hsorted ⊢
    rwa [hx]
  · have hrest := (h.rest hkey).cons (kx x', vx x')
    have hright : (kx x', vx x') = (ky y', vy y') := by rw [hvalue, hx, hy, hkey]
    refine ((List.perm_middle.map _).trans ?_).trans (List.perm_middle.map _).symm
    rw [List.map_cons, List.map_cons, ← hright]
    exact hrest

/-- A key leaves both sides. -/
theorem remove {as bs : List α} {cs ds : List β} {x : α} {y : β}
    (h : Couples kx vx ky vy (as ++ x :: bs) (cs ++ y :: ds)) (hkey : kx x = ky y) :
    Couples kx vx ky vy (as ++ bs) (cs ++ ds) := by
  refine ⟨h.sorted.sublist ?_, h.rest hkey⟩
  exact (List.Sublist.append_left (List.sublist_cons_self x bs) as).map kx

end

end Couples

/-! ## a change at one key -/

section
variable [DecidableEq κ] {key : α → κ} {k k' : κ} {x : α} {xs ys zs as bs : List α}

/-- The first element with a key. -/
def lookup (key : α → κ) (xs : List α) (k : κ) : Option α := xs.find? fun x => key x = k

theorem lookup_absent (h : ∀ x ∈ xs, key x ≠ k) : lookup key xs k = none :=
  List.find?_eq_none.mpr (by simpa using h)

theorem lookup_mem (h : lookup key xs k = some x) : x ∈ xs := List.mem_of_find?_eq_some h

/-- An element behind others with other keys. -/
theorem lookup_middle (has : ∀ a ∈ as, key a ≠ k) (hx : key x = k) :
    lookup key (as ++ x :: bs) k = some x := by
  have hnone : as.find? (fun a => key a = k) = none := lookup_absent has
  simp [lookup, List.find?_append, hnone, hx]

/-- An element with another key is passed over. -/
theorem lookup_other (hx : key x ≠ k) : lookup key (as ++ x :: bs) k = lookup key (as ++ bs) k := by
  simp [lookup, List.find?_append, hx]

/-- `ys` is `xs` but at the key `k`, where `f` says what it has instead. -/
structure Alters [LT κ] (key : α → κ) (k : κ) (f : Option α → Option α) (xs ys : List α) :
    Prop where
  ascends : Ascends key ys
  here : lookup key ys k = f (lookup key xs k)
  elsewhere : ∀ k', k' ≠ k → lookup key ys k' = lookup key xs k'

namespace Alters

variable [LT κ] {f g : Option α → Option α}

/-- Nothing changes. -/
theorem refl (h : Ascends key xs) (hf : f (lookup key xs k) = lookup key xs k) :
    Alters key k f xs xs := ⟨h, hf.symm, fun _ _ => rfl⟩

/-- Only what is found at the key matters. -/
theorem congr (h : Alters key k f xs ys) (hfg : f (lookup key xs k) = g (lookup key xs k)) :
    Alters key k g xs ys := ⟨h.ascends, h.here.trans hfg, h.elsewhere⟩

/-- Two changes at one key are one. -/
theorem trans (h : Alters key k f xs ys) (h' : Alters key k g ys zs) :
    Alters key k (g ∘ f) xs zs :=
  ⟨h'.ascends, by rw [h'.here, h.here]; rfl,
    fun k' hk' => (h'.elsewhere k' hk').trans (h.elsewhere k' hk')⟩

/-- The element with the key is replaced. -/
theorem update {x' : α} (hys : Ascends key (as ++ x' :: bs)) (has : ∀ a ∈ as, key a ≠ k)
    (hx : key x = k) (hx' : key x' = k) (hf : f (some x) = some x') :
    Alters key k f (as ++ x :: bs) (as ++ x' :: bs) := by
  refine ⟨hys, ?_, fun k' hk' => ?_⟩
  · rw [lookup_middle has hx, lookup_middle has hx', hf]
  · rw [lookup_other (by rwa [hx', ne_comm]), lookup_other (by rwa [hx, ne_comm])]

/-- An element with a new key comes. -/
theorem insert (hys : Ascends key (as ++ x :: bs)) (hnew : ∀ a ∈ as ++ bs, key a ≠ k)
    (hx : key x = k) (hf : f none = some x) : Alters key k f (as ++ bs) (as ++ x :: bs) := by
  refine ⟨hys, ?_, fun k' hk' => ?_⟩
  · rw [lookup_absent hnew, hf, lookup_middle (fun a ha => hnew a (List.mem_append_left bs ha)) hx]
  · rw [lookup_other (by rwa [hx, ne_comm])]

/-- The element with the key goes. -/
theorem remove (hys : Ascends key (as ++ bs)) (has : ∀ a ∈ as, key a ≠ k)
    (hbs : ∀ b ∈ bs, key b ≠ k) (hx : key x = k) (hf : f (some x) = none) :
    Alters key k f (as ++ x :: bs) (as ++ bs) := by
  refine ⟨hys, ?_, fun k' hk' => ?_⟩
  · rw [lookup_middle has hx, hf, lookup_absent]
    intro b hb
    rcases List.mem_append.mp hb with hb | hb
    · exact has b hb
    · exact hbs b hb
  · rw [lookup_other (by rwa [hx, ne_comm])]

end Alters

section
variable [LE κ] [LT κ] [Std.LawfulOrderLT κ]

/-- What is on the list is what the searches find. -/
theorem mem_iff_lookup (h : Ascends key xs) : x ∈ xs ↔ lookup key xs (key x) = some x := by
  constructor
  · intro hx
    obtain ⟨as, bs, rfl⟩ := List.append_of_mem hx
    exact lookup_middle (ne_of_nodup h.nodup).1 rfl
  · exact lookup_mem

/-- A sorted list is what the searches find. -/
theorem lookup_ext [Std.IsLinearOrder κ] (hxs : Ascends key xs) (hys : Ascends key ys)
    (h : ∀ k, lookup key xs k = lookup key ys k) : xs = ys := by
  have hperm : xs.Perm ys := by
    rw [List.perm_ext_iff_of_nodup hxs.nodup.of_map hys.nodup.of_map]
    intro x
    rw [mem_iff_lookup hxs, mem_iff_lookup hys, h]
  have hanti : ∀ x y, x ∈ xs → y ∈ ys → key x < key y → key y < key x → x = y := by
    intro x y _ _ hlt hgt
    exact absurd (Std.lt_trans hlt hgt) Std.lt_irrefl
  exact hperm.eq_of_pairwise hanti (List.pairwise_map.mp hxs) (List.pairwise_map.mp hys)

/-- **Changes at different keys commute.** -/
theorem Alters.comm [Std.IsLinearOrder κ] {f g : Option α → Option α}
    {xsf xsg xsfg xsgf : List α} (hne : k ≠ k') (hf : Alters key k f xs xsf)
    (hfg : Alters key k' g xsf xsfg) (hg : Alters key k' g xs xsg)
    (hgf : Alters key k f xsg xsgf) : xsfg = xsgf := by
  refine lookup_ext hfg.ascends hgf.ascends fun j => ?_
  by_cases hj : j = k
  · subst hj
    rw [hfg.elsewhere j hne, hf.here, hgf.here, hg.elsewhere j hne]
  · by_cases hj' : j = k'
    · subst hj'
      rw [hfg.here, hf.elsewhere j hj, hgf.elsewhere j hj, hg.here]
    · rw [hfg.elsewhere j hj', hf.elsewhere j hj, hgf.elsewhere j hj, hg.elsewhere j hj']

end

end

end Bsflite.Keyed
