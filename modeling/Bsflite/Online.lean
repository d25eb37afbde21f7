import Bsflite.Handle

/-!
# Bsflite.Online

What `imcomm/imcomm.c` does to its list of buddies online, when each name is
on it once.

* `imcommUpdateBuddyTimes_found`, `imcommUpdateBuddyTimes_absent`,
  `imcommUpdateBuddyTimes_onlinetime` — the times of a buddy.
* `imcommUpdateBuddyAway_found`, `imcommUpdateBuddyAway_same` — the away state.
* `imcommInternalDeleteBuddy_found`, `imcommInternalDeleteBuddy_absent` — a
  buddy who leaves.
-/

namespace Bsflite

/-- A fold whose steps change nothing. -/
theorem foldl_eq_self {σ ι : Type} {f : σ → ι → σ} {s : σ} {is : List ι}
    (h : ∀ i ∈ is, f s i = s) : is.foldl f s = s := by
  induction is with
  | nil => rfl
  | cons i is ih =>
      rw [List.foldl_cons, h i List.mem_cons_self]
      exact ih fun j hj => h j (List.mem_cons_of_mem i hj)

section
variable {σ : Type} (cbs : Callbacks σ) {w : World σ} {sn : Str} {as bs : List OnlineBuddy}
  {t : OnlineBuddy}

/-- The world with another list of buddies online. -/
def World.withOnline (w : World σ) (online : List OnlineBuddy) : World σ :=
  { w with handle := { w.handle with buddiesOnline := online } }

/-- A store into the node in the middle. -/
theorem setOnline_split (hlist : w.handle.buddiesOnline = as ++ t :: bs) (t' : OnlineBuddy) :
    w.setOnline as.length t' = w.withOnline (as ++ t' :: bs) := by
  simp [World.setOnline, World.withOnline, hlist]

/-- The node in the middle. -/
theorem online_split (hlist : w.handle.buddiesOnline = as ++ t :: bs) :
    w.handle.buddiesOnline[as.length]? = some t := by
  simp [hlist]

/-- The loop passes over a node with another name. -/
theorem imcommUpdateBuddyTimesAt_other {type value i : Nat}
    (h : ∀ t, w.handle.buddiesOnline[i]? = some t → t.sn ≠ imcommSimplifySn sn) :
    imcommUpdateBuddyTimesAt cbs sn type value w i = w := by
  rw [imcommUpdateBuddyTimesAt]
  cases hi : w.handle.buddiesOnline[i]? with
  | none => rfl
  | some t => simp [Ne.symm (h t hi)]

/-- Nobody of the name is online. -/
theorem imcommUpdateBuddyTimes_absent (type value : Nat)
    (h : ∀ t ∈ w.handle.buddiesOnline, t.sn ≠ imcommSimplifySn sn) :
    imcommUpdateBuddyTimes cbs w sn type value = w :=
  foldl_eq_self fun _ _ => imcommUpdateBuddyTimesAt_other cbs fun t ht =>
    h t (List.mem_of_getElem? ht)

/-- **One node has the name**: its idle time is set, and the client is told. -/
theorem imcommUpdateBuddyTimes_found (value : Nat)
    (hlist : w.handle.buddiesOnline = as ++ t :: bs) (ht : t.sn = imcommSimplifySn sn)
    (has : ∀ x ∈ as, x.sn ≠ imcommSimplifySn sn) (hbs : ∀ x ∈ bs, x.sn ≠ imcommSimplifySn sn)
    (hcall : ((w.withOnline (as ++ { t with idletime := value } :: bs)).fire cbs
        (.imIdleinfo sn value)).handle.buddiesOnline =
      as ++ { t with idletime := value } :: bs) :
    imcommUpdateBuddyTimes cbs w sn 1 value =
      (w.withOnline (as ++ { t with idletime := value } :: bs)).fire cbs
        (.imIdleinfo sn value) := by
  have hlen : (as ++ t :: bs).length = as.length + (bs.length + 1) := by simp
  have hbefore : (List.range as.length).foldl (imcommUpdateBuddyTimesAt cbs sn 1 value) w = w := by
    apply foldl_eq_self
    intro i hi
    apply imcommUpdateBuddyTimesAt_other
    intro x hx
    rw [hlist, List.getElem?_append_left (List.mem_range.mp hi)] at hx
    exact has x (List.mem_of_getElem? hx)
  have hat : imcommUpdateBuddyTimesAt cbs sn 1 value w as.length =
      (w.withOnline (as ++ { t with idletime := value } :: bs)).fire cbs
        (.imIdleinfo sn value) := by
    rw [imcommUpdateBuddyTimesAt, online_split hlist]
    simp only [ht.symm, if_true, setOnline_split hlist]
  rw [imcommUpdateBuddyTimes, hlist, hlen, List.range_add, List.foldl_append, hbefore,
    List.range_succ_eq_map, List.map_cons, List.foldl_cons, Nat.add_zero, hat]
  apply foldl_eq_self
  intro i hi
  apply imcommUpdateBuddyTimesAt_other
  intro x hx
  simp only [List.mem_map, List.mem_range] at hi
  obtain ⟨-, ⟨j, -, rfl⟩, rfl⟩ := hi
  rw [hcall, List.getElem?_append_right (Nat.le_add_right _ _), Nat.add_sub_cancel_left] at hx
  exact hbs x (List.mem_of_getElem? (i := j) hx)

/-- An online time that is set changes nothing else. -/
theorem imcommUpdateBuddyTimes_onlinetime {γ : Type} {f : OnlineBuddy → γ}
    (hf : ∀ (t : OnlineBuddy) (v : Nat), f { t with onlinetime := v } = f t) (w : World σ)
    (sn : Str) (value : Nat) :
    ∃ online, imcommUpdateBuddyTimes cbs w sn 2 value = w.withOnline online ∧
      online.map f = w.handle.buddiesOnline.map f := by
  rw [imcommUpdateBuddyTimes]
  generalize List.range _ = is
  induction is generalizing w with
  | nil => exact ⟨w.handle.buddiesOnline, rfl, rfl⟩
  | cons i is ih =>
      obtain ⟨online, hstep, hmap⟩ : ∃ online, imcommUpdateBuddyTimesAt cbs sn 2 value w i =
          w.withOnline online ∧ online.map f = w.handle.buddiesOnline.map f := by
        rw [imcommUpdateBuddyTimesAt]
        split
        · next trav hi =>
          split
          · refine ⟨_, rfl, ?_⟩
            obtain ⟨hlt, htrav⟩ := List.getElem?_eq_some_iff.mp hi
            rw [List.map_set, hf, ← htrav, ← List.getElem_map f, List.set_getElem_self]
            simpa using hlt
          · exact ⟨w.handle.buddiesOnline, rfl, rfl⟩
        · exact ⟨w.handle.buddiesOnline, rfl, rfl⟩
      obtain ⟨online', hrest, hmap'⟩ := ih (w.withOnline online)
      exact ⟨online', by rw [List.foldl_cons, hstep, hrest]; rfl, hmap'.trans hmap⟩

/-- **One node has the name**, and another away state: it is set, and the
client is told. -/
theorem imcommUpdateBuddyAway_found {isaway : Bool}
    (hlist : w.handle.buddiesOnline = as ++ t :: bs) (ht : t.sn = imcommSimplifySn sn)
    (has : ∀ x ∈ as, x.sn ≠ imcommSimplifySn sn) (haway : t.isaway ≠ isaway) :
    imcommUpdateBuddyAway cbs w sn isaway =
      (w.withOnline (as ++ { t with isaway := isaway } :: bs)).fire cbs
        (if isaway then .imBuddyaway sn else .imBuddyunaway sn) := by
  have hfind : w.handle.buddiesOnline.findIdx?
      (fun trav => imcommSimplifySn sn = trav.sn ∧ trav.isaway ≠ isaway) = some as.length := by
    have hnone : as.findIdx?
        (fun trav => decide (imcommSimplifySn sn = trav.sn ∧ trav.isaway ≠ isaway)) = none :=
      List.findIdx?_eq_none_iff.mpr fun x hx => by simp [Ne.symm (has x hx)]
    rw [hlist, List.findIdx?_append, hnone, List.findIdx?_cons]
    simp [ht, haway]
  simp only [imcommUpdateBuddyAway, hfind, online_split hlist, setOnline_split hlist]

/-- Every node of the name has the away state already. -/
theorem imcommUpdateBuddyAway_same {isaway : Bool}
    (h : ∀ t ∈ w.handle.buddiesOnline, t.sn = imcommSimplifySn sn → t.isaway = isaway) :
    imcommUpdateBuddyAway cbs w sn isaway = w := by
  have hfind : w.handle.buddiesOnline.findIdx?
      (fun trav => imcommSimplifySn sn = trav.sn ∧ trav.isaway ≠ isaway) = none := by
    refine List.findIdx?_eq_none_iff.mpr fun t ht => decide_eq_false ?_
    rintro ⟨hsn, haway⟩
    exact haway (h t ht hsn.symm)
  simp only [imcommUpdateBuddyAway, hfind]

end

/-- **One node has the name** and goes. -/
theorem imcommInternalDeleteBuddy_found {h : Imcomm} {sn : Str} {as bs : List OnlineBuddy}
    {t : OnlineBuddy} (hlist : h.buddiesOnline = as ++ t :: bs) (ht : t.sn = imcommSimplifySn sn)
    (has : ∀ x ∈ as, x.sn ≠ imcommSimplifySn sn) :
    (imcommInternalDeleteBuddy h sn).buddiesOnline = as ++ bs := by
  have hnone : ∀ x ∈ as, ¬ decide (x.sn = imcommSimplifySn sn) = true := by simpa using has
  have hfirst : (t :: bs).eraseP (fun trav => trav.sn = imcommSimplifySn sn) = bs := by
    simp [ht]
  rw [imcommInternalDeleteBuddy, hlist, List.eraseP_append_right _ hnone, hfirst]

/-- Nobody of the name is online. -/
theorem imcommInternalDeleteBuddy_absent {h : Imcomm} {sn : Str}
    (habsent : ∀ x ∈ h.buddiesOnline, x.sn ≠ imcommSimplifySn sn) :
    (imcommInternalDeleteBuddy h sn).buddiesOnline = h.buddiesOnline := by
  rw [imcommInternalDeleteBuddy]
  exact List.eraseP_of_forall_not (by simpa using habsent)

end Bsflite
