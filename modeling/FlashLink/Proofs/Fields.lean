import FlashLink.Link.Apply
import FlashLink.Proofs.ByteSpans
import FlashLink.Proofs.Logic

/-!
Relocating a buffer as a function of its bytes.

`linkAll` applies a table to a buffer, given a rule that says what symbols mean. The actions that
relocate a chunk compute `linkAll`, whatever the resolver has to remember on the way. A buffer that is
cut where no field straddles the cut can be linked in two pieces: that is why streaming works.
-/

namespace FlashLink.Relocation

open Act

/-- What symbols mean: the address of each, or why it has none. -/
abbrev Rule : Type := Nat → Except Error Addr

/-- The bytes of a field once its entry is applied. -/
def field (base : Addr) (strict : Bool) (rule : Rule) (r : Relocation) (old : Bytes) :
    Except Error Bytes :=
  match r.kind with
  | .ignore => .ok old
  | .absolute => (rule r.symbol).map (absoluteField (old.u32 0))
  | .call =>
    match rule r.symbol with
    | .error e => .error e
    | .ok target =>
      (callField (old.u16 0) (old.u16 2) target (base + r.offset)).mapError fun d =>
        .relocationRange r.start (Int32.ofInt d)
  | .unsupported => if strict then .error (.unsupportedRelocation r.type r.start) else .ok old

/-- Applies an entry to a buffer that holds a section from offset `first` on, if its field lies
there. -/
def link (first : Nat) (base : Addr) (strict : Bool) (rule : Rule) (buf : Bytes) (r : Relocation) :
    Except Error Bytes :=
  if inside first buf.size r then
    (field base strict rule r (buf.slice (r.start - first) 4)).map (buf.overwrite (r.start - first))
  else .ok buf

/-- Applies a table to a buffer, in the order of the table. -/
def linkAll (first : Nat) (base : Addr) (strict : Bool) (rule : Rule) (rs : List Relocation)
    (buf : Bytes) : Except Error Bytes :=
  rs.foldlM (link first base strict rule) buf

/-- The field reaches over a boundary. -/
def Straddles (r : Relocation) (b : Nat) : Prop := r.start < b ∧ b < r.stop

instance (r : Relocation) (b : Nat) : Decidable (r.Straddles b) :=
  inferInstanceAs (Decidable (_ ∧ _))

variable {first : Nat} {base : Addr} {strict : Bool} {rule : Rule} {r : Relocation}
  {rs qs : List Relocation} {buf out old : Bytes}

lemma size_field (hold : old.size = 4) (h : field base strict rule r old = .ok out) :
    out.size = 4 := by
  unfold field at h
  rcases hk : r.kind <;> simp only [hk] at h
  · cases h; exact hold
  · rcases hr : rule r.symbol with e | a <;> simp only [hr, Except.map] at h
    · cases h
    · cases h; rfl
  · rcases hr : rule r.symbol with e | a <;> simp only [hr] at h
    · cases h
    · unfold callField at h
      dsimp only at h
      split_ifs at h
      · cases h; rfl
      · cases h
  · split_ifs at h
    cases h; exact hold

lemma inside_iff {n : Nat} : inside first n r = true ↔ first ≤ r.start ∧ r.stop ≤ first + n := by
  simp [inside]

lemma size_link (h : link first base strict rule buf r = .ok out) : out.size = buf.size := by
  unfold link at h
  split_ifs at h
  · rcases hf : field base strict rule r (buf.slice (r.start - first) 4) with e | b <;>
      simp only [hf, Except.map] at h
    · cases h
    · cases h; simp
  · cases h; rfl

@[simp] lemma linkAll_nil : linkAll first base strict rule [] buf = .ok buf := rfl

lemma linkAll_cons : linkAll first base strict rule (r :: rs) buf =
    link first base strict rule buf r >>= linkAll first base strict rule rs := by
  rw [linkAll, List.foldlM_cons]
  rfl

lemma linkAll_append : linkAll first base strict rule (rs ++ qs) buf =
    linkAll first base strict rule rs buf >>= linkAll first base strict rule qs := by
  rw [linkAll, List.foldlM_append]
  rfl

lemma size_linkAll (h : linkAll first base strict rule rs buf = .ok out) : out.size = buf.size := by
  induction rs generalizing buf with
  | nil => cases h; rfl
  | cons r rs ih =>
    rw [linkAll_cons] at h
    rcases hr : link first base strict rule buf r with e | b <;> rw [hr] at h
    · cases h
    · exact (ih h).trans (size_link hr)

/-- A table that fails already in its first entries. -/
lemma linkAll_of_prefix (h : qs <+: rs) (hok : linkAll first base strict rule rs buf = .ok out) :
    ∃ b, linkAll first base strict rule qs buf = .ok b := by
  obtain ⟨rest, rfl⟩ := h
  rw [linkAll_append] at hok
  rcases hq : linkAll first base strict rule qs buf with e | b
  · rw [hq] at hok
    cases hok
  · exact ⟨b, rfl⟩

/-! ### Cutting a buffer -/

variable {left right : Bytes}

/-- An entry whose field lies before the cut. -/
lemma link_left (h : inside first left.size r) :
    link first base strict rule (left ++ right) r =
        (link first base strict rule left r).map (· ++ right) ∧
      link (first + left.size) base strict rule right r = .ok right := by
  obtain ⟨h1, h2⟩ := inside_iff.1 h
  have hfit : r.start - first + 4 ≤ left.size := by rw [stop] at h2; omega
  have hwhole : inside first (left ++ right).size r := inside_iff.2 ⟨h1, by simp; omega⟩
  refine ⟨?_, ?_⟩
  · rw [link, link, if_pos hwhole, if_pos h, Bytes.slice_append_left hfit]
    have hold := Bytes.size_slice_of_le hfit
    rcases hf : field base strict rule r (left.slice (r.start - first) 4) with e | b
    · rfl
    · have hb := size_field hold hf
      simp only [Except.map]
      rw [Bytes.overwrite_append_left (by omega)]
  · rw [link, if_neg]
    rw [inside_iff]
    rw [stop] at h2
    omega

/-- An entry whose field lies after the cut. -/
lemma link_right (h : inside (first + left.size) right.size r) :
    link first base strict rule (left ++ right) r =
        (link (first + left.size) base strict rule right r).map (left ++ ·) ∧
      link first base strict rule left r = .ok left := by
  obtain ⟨h1, h2⟩ := inside_iff.1 h
  have hwhole : inside first (left ++ right).size r := inside_iff.2 ⟨by omega, by simp; omega⟩
  have hi : r.start - first = left.size + (r.start - (first + left.size)) := by omega
  refine ⟨?_, ?_⟩
  · rw [link, link, if_pos hwhole, if_pos h, hi, Bytes.slice_append_right]
    rcases field base strict rule r (right.slice (r.start - (first + left.size)) 4) with e | b
    · rfl
    · simp only [Except.map]
      rw [Bytes.overwrite_append_right]
  · rw [link, if_neg]
    rw [inside_iff, stop]
    omega

/-- An entry whose field lies on neither side. -/
lemma link_outside {n : Nat} (hn : buf.size = n) (h : inside first n r = false) :
    link first base strict rule buf r = .ok buf := by
  rw [link, hn, if_neg (by simp [h])]

/-- No field lies in an empty buffer. -/
lemma linkAll_empty : linkAll first base strict rule rs #[] = .ok #[] := by
  induction rs with
  | nil => rfl
  | cons r rs ih =>
    have hr : inside first 0 r = false := by
      rw [Bool.eq_false_iff, ne_eq, inside_iff, stop]
      omega
    rw [linkAll_cons, link_outside rfl hr]
    exact ih

/-- **Cutting**: where no field straddles the cut, both pieces are linked by themselves. -/
lemma linkAll_split (h : ∀ r ∈ rs, ¬ r.Straddles (first + left.size)) :
    linkAll first base strict rule rs (left ++ right) = .ok out ↔
      ∃ l r, linkAll first base strict rule rs left = .ok l ∧
        linkAll (first + left.size) base strict rule rs right = .ok r ∧ out = l ++ r := by
  induction rs generalizing left right with
  | nil =>
    simp only [linkAll_nil, Except.ok.injEq]
    constructor
    · rintro rfl; exact ⟨left, right, rfl, rfl, rfl⟩
    · rintro ⟨_, _, rfl, rfl, rfl⟩; rfl
  | cons r rs ih =>
    have hrs : ∀ q ∈ rs, ¬ q.Straddles (first + left.size) := fun q hq => h q (.tail _ hq)
    have hr := h r (.head _)
    rw [linkAll_cons, linkAll_cons, linkAll_cons]
    by_cases hl : inside first left.size r
    · -- the entry is the left piece's
      obtain ⟨hwhole, hright⟩ := @link_left first base strict rule r left right hl
      rw [hwhole, hright]
      rcases hb : link first base strict rule left r with e | b
      · constructor
        · intro h; cases h
        · rintro ⟨_, _, h, _⟩; cases h
      · have hsize := size_link hb
        rw [← hsize] at hrs ⊢
        exact ih hrs
    by_cases hr' : inside (first + left.size) right.size r
    · -- the entry is the right piece's
      obtain ⟨hwhole, hleft⟩ := @link_right first base strict rule r left right hr'
      rw [hwhole, hleft]
      rcases hb : link (first + left.size) base strict rule right r with e | b
      · constructor
        · intro h; cases h
        · rintro ⟨_, _, _, h, _⟩; cases h
      · exact ih hrs
    · -- the entry is nobody's
      have hw : inside first (left ++ right).size r = false := by
        rw [Bool.eq_false_iff, ne_eq, inside_iff]
        rw [inside_iff] at hl hr'
        rw [Straddles] at hr
        rw [stop] at hl hr' hr ⊢
        rw [Array.size_append]
        omega
      rw [link_outside rfl hw, link_outside rfl (by simpa using hl),
        link_outside rfl (by simpa using hr')]
      exact ih hrs

/-! ### The actions -/

variable {σ : Type} {resolve : Nat → Act σ Addr} {I : σ → Prop} {s : σ}

/-- An entry whose field lies in the buffer is applied as `link` says. -/
lemma apply_sat (hres : ∀ i s, I s → Yields (resolve i) s (rule i) I) (hI : I s)
    (hin : inside first buf.size r) :
    Sat (r.apply first base strict resolve) (buf, s)
      (fun _ t => link first base strict rule buf r = .ok t.1 ∧ I t.2)
      (fun e t => link first base strict rule buf r = .error e ∧ I t.2) := by
  have hlink : link first base strict rule buf r =
      (field base strict rule r (buf.slice (r.start - first) 4)).map
        (buf.overwrite (r.start - first)) := if_pos hin
  obtain ⟨h1, h2⟩ := inside_iff.1 hin
  rw [stop] at h2
  have hfit : r.start - first + 4 ≤ buf.size := by omega
  have hsame : buf.overwrite (r.start - first) (buf.slice (r.start - first) 4) = buf :=
    Bytes.overwrite_slice buf hfit
  unfold apply
  refine Sat.get_bind ?_
  rw [if_pos (by simp; omega)]
  have hresolve : Sat (zoom Part.second (resolve r.symbol)) (buf, s)
      (fun a t => rule r.symbol = .ok a ∧ t.1 = buf ∧ I t.2)
      (fun e t => rule r.symbol = .error e ∧ I t.2) := by
    rw [sat_zoom]
    exact (hres _ s hI).mono (fun a t h => ⟨h.1, rfl, h.2⟩) fun e t h => h
  unfold field at hlink
  rcases hk : r.kind <;> simp only [hk] at hlink ⊢
  · simpa [hlink, Except.map, hsame] using hI
  · -- the word of an absolute field
    refine Sat.bind hresolve ?_ ?_
    · rintro a ⟨b, t⟩ ⟨ha, rfl, ht⟩
      refine Sat.modify_bind ?_
      rw [Bytes.u32_slice, ha] at hlink
      simpa [hlink, Except.map] using ht
    · rintro e t ⟨he, ht⟩
      rw [he] at hlink
      exact ⟨hlink, ht⟩
  · -- the halfwords of a call
    refine Sat.bind hresolve ?_ ?_
    · rintro a ⟨b, t⟩ ⟨ha, rfl, ht⟩
      refine Sat.get_bind ?_
      rw [Bytes.u16_slice _ _ (by omega), Bytes.u16_slice _ _ (by omega), Nat.add_zero, ha] at hlink
      dsimp only at hlink ⊢
      rcases hc : callField (b.u16 (r.start - first)) (b.u16 (r.start - first + 2)) a
        (base + r.offset) with d | f <;> simp only [hc, Except.mapError, Except.map] at hlink ⊢
      · exact ⟨hlink, ht⟩
      · exact Sat.modify_bind ⟨hlink, ht⟩
    · rintro e t ⟨he, ht⟩
      rw [he] at hlink
      exact ⟨hlink, ht⟩
  · cases strict
    · refine Sat.note_bind ?_
      simpa [hlink, Except.map, hsame] using hI
    · exact Sat.throw_bind ⟨hlink, hI⟩

lemma applyAll_sat (hres : ∀ i s, I s → Yields (resolve i) s (rule i) I) (hI : I s) (t : Tally) :
    Sat (applyAll first base strict resolve rs t) (buf, s)
      (fun _ t => linkAll first base strict rule rs buf = .ok t.1 ∧ I t.2)
      (fun e t => linkAll first base strict rule rs buf = .error e ∧ I t.2) := by
  induction rs generalizing buf s t with
  | nil => exact ⟨rfl, hI⟩
  | cons r rs ih =>
    unfold applyAll
    rw [linkAll_cons]
    refine Sat.get_bind ?_
    split_ifs with hin
    · refine Sat.bind (apply_sat hres hI hin) ?_ ?_
      · rintro done ⟨b, s'⟩ ⟨hb, hs'⟩
        rw [hb]
        exact ih hs' _
      · rintro e u ⟨he, hu⟩
        rw [he]
        exact ⟨rfl, hu⟩
    · rw [link_outside rfl (by simpa using hin)]
      exact ih hI _

/-- A chunk is relocated as `linkAll` says. -/
lemma applyChunk_sat (hres : ∀ i s, I s → Yields (resolve i) s (rule i) I) (hI : I s)
    (hsize : first + buf.size < sizeLimit) :
    Sat (applyChunk first base strict resolve rs) (buf, s)
      (fun _ t => linkAll first base strict rule rs buf = .ok t.1 ∧ I t.2)
      (fun e t => linkAll first base strict rule rs buf = .error e ∧ I t.2) := by
  unfold applyChunk
  refine Sat.get_bind ?_
  rw [if_neg (by simpa using hsize)]
  exact applyAll_sat hres hI _

/-! ### Footprint -/

/-- Relocating keeps the size of the buffer, whatever the resolver does. -/
lemma apply_size (r : Relocation) (first : Nat) (base : Addr) (strict : Bool)
    (resolve : Nat → Act σ Addr) (buf : Bytes) (s : σ) :
    Sat (r.apply first base strict resolve) (buf, s) (fun _ t => t.1.size = buf.size)
      (fun _ t => t.1.size = buf.size) := by
  have hresolve : ∀ i, Sat (zoom Part.second (resolve i)) (buf, s) (fun _ t => t.1.size = buf.size)
      (fun _ t => t.1.size = buf.size) := fun i => by
    rw [sat_zoom]
    unfold Sat
    rcases resolve i (Part.second (buf, s)).1 with ⟨_ | _, _, _⟩ <;> rfl
  unfold apply
  refine Sat.get_bind ?_
  by_cases hin : (decide (first ≤ r.start) && decide (r.start - first + 4 ≤ buf.size)) = true
  · rw [if_pos hin]
    dsimp only
    rcases r.kind
    · exact rfl
    · exact Sat.bind (hresolve _) (fun _ t h => Sat.modify_bind (by simpa using h)) fun _ _ h => h
    · refine Sat.bind (hresolve _) (fun a t h => Sat.get_bind ?_) fun _ _ h => h
      rcases callField _ _ a _ with d | f
      · exact h
      · exact Sat.modify_bind (by simpa using h)
    · split_ifs
      · exact Sat.throw_bind rfl
      · exact Sat.note_bind rfl
  · rw [if_neg hin]
    exact Sat.throw_bind rfl

lemma applyChunk_size (first : Nat) (base : Addr) (strict : Bool) (resolve : Nat → Act σ Addr)
    (rs : List Relocation) (buf : Bytes) (s : σ) :
    Sat (applyChunk first base strict resolve rs) (buf, s) (fun _ t => t.1.size = buf.size)
      (fun _ t => t.1.size = buf.size) := by
  have hall : ∀ (rs : List Relocation) (sum : Tally) (b : Bytes) (s : σ), b.size = buf.size →
      Sat (applyAll first base strict resolve rs sum) (b, s) (fun _ t => t.1.size = buf.size)
        (fun _ t => t.1.size = buf.size) := by
    intro rs
    induction rs with
    | nil => exact fun _ _ _ h => h
    | cons r rs ih =>
      intro sum b s hb
      unfold applyAll
      refine Sat.get_bind ?_
      split_ifs
      · exact Sat.bind (apply_size r first base strict resolve b s)
          (fun _ t h => ih _ _ _ (h.trans hb)) fun _ _ h => h.trans hb
      · exact ih _ _ _ hb
  unfold applyChunk
  refine Sat.get_bind ?_
  split_ifs
  · exact Sat.throw_bind rfl
  · exact hall rs _ buf s rfl

end FlashLink.Relocation
