import FlashLink.Proofs.Applying

/-!
A section relocated in chunks. The section may be cut wherever no field straddles the cut, and each chunk may
take the table in batches of its own. The chunks side by side are then the section relocated as a whole, also
where fields overlap, and the tallies add up: every entry counts in the one chunk that has its field. Entries
of different chunks change places on the way, but those of one chunk stay in order.
-/

namespace FlashLink

namespace Tally

@[simp] lemma zero_add (t : Tally) : zero.add t = t := by simp [zero, add]

@[simp] lemma add_zero (t : Tally) : t.add zero = t := rfl

lemma add_assoc (t u v : Tally) : (t.add u).add v = t.add (u.add v) := by
  simp [add, Nat.add_assoc]

lemma add_left_comm (t u v : Tally) : t.add (u.add v) = u.add (t.add v) := by
  simp [add, Nat.add_left_comm]

lemma record_eq (t : Tally) (a : Applied) : t.record a = t.add (zero.record a) := by
  cases a <;> rfl

end Tally

namespace Relocation

open Act

/-! ### What is counted -/

/-- The tally of the entries whose fields lie in the `len` bytes from section offset `first` on. -/
def tally (first len : Nat) : List Relocation → Tally
  | [] => .zero
  | r :: rs =>
    if inside first len r then (Tally.zero.record r.kind.done).add (tally first len rs)
    else tally first len rs

variable {first n m : Nat} {base : Addr} {strict : Bool} {rule : Rule} {rs qs : List Relocation}
  {buf out left right : Bytes} {t : Tally}

lemma tally_append : tally first n (rs ++ qs) = (tally first n rs).add (tally first n qs) := by
  induction rs with
  | nil => simp [tally]
  | cons r rs ih =>
    rw [List.cons_append, tally, tally, ih]
    split_ifs
    · rw [Tally.add_assoc]
    · rfl

/-- No field lies in an empty buffer. -/
lemma tally_empty : tally first 0 rs = .zero := by
  induction rs with
  | nil => rfl
  | cons r rs ih =>
    rw [tally, if_neg, ih]
    rw [inside_iff, stop]
    omega

/-- Where no field straddles the cut, each entry counts on one side of it. -/
lemma tally_cut (h : ∀ r ∈ rs, ¬ r.Straddles (first + n)) :
    tally first (n + m) rs = (tally first n rs).add (tally (first + n) m rs) := by
  induction rs with
  | nil => rfl
  | cons r rs ih =>
    have hr := h r (.head _)
    rw [Straddles, stop] at hr
    rw [tally, tally, tally, ih fun q hq => h q (.tail _ hq)]
    simp only [inside_iff, stop]
    by_cases hleft : first ≤ r.start ∧ r.start + 4 ≤ first + n
    · rw [if_pos (by omega), if_pos hleft, if_neg (by omega), Tally.add_assoc]
    by_cases hright : first + n ≤ r.start ∧ r.start + 4 ≤ first + n + m
    · rw [if_pos (by omega), if_neg hleft, if_pos hright, Tally.add_left_comm]
    · rw [if_neg (by omega), if_neg hleft, if_neg hright]

lemma applyAll_tally {σ : Type} (resolve : Nat → Act σ Addr) (t : Tally) (buf : Bytes) (s : σ) :
    Sat (applyAll first base strict resolve rs t) (buf, s)
      (fun u _ => u = t.add (tally first buf.size rs)) fun _ _ => True := by
  induction rs generalizing t buf s with
  | nil => rfl
  | cons r rs ih =>
    unfold applyAll
    refine Sat.get_bind ?_
    rw [tally]
    split_ifs with hin
    · have happly := (apply_done first base strict resolve r buf s).and
        (apply_size r first base strict resolve buf s)
      refine happly.bind ?_ fun _ _ _ => trivial
      rintro _ ⟨b, s'⟩ ⟨rfl, hsize⟩
      refine (ih (t.record r.kind.done) b s').mono (fun u _ hu => ?_) fun _ _ h => h
      calc u = (t.record r.kind.done).add (tally first b.size rs) := hu
        _ = (t.add (Tally.zero.record r.kind.done)).add (tally first b.size rs) := by
          rw [Tally.record_eq]
        _ = t.add ((Tally.zero.record r.kind.done).add (tally first buf.size rs)) := by
          rw [Tally.add_assoc, show b.size = buf.size from hsize]
    · exact ih t buf s

lemma applyChunk_tally {σ : Type} (resolve : Nat → Act σ Addr) (buf : Bytes) (s : σ) :
    Sat (applyChunk first base strict resolve rs) (buf, s) (fun u _ => u = tally first buf.size rs)
      fun _ _ => True := by
  unfold applyChunk
  refine Sat.get_bind ?_
  split_ifs
  · exact Sat.throw_bind trivial
  · refine (applyAll_tally resolve .zero buf s).mono (fun u _ hu => ?_) fun _ _ h => h
    rw [hu, Tally.zero_add]

/-! ### Relocating a buffer -/

/-- A buffer relocated with one call, and what was counted, where symbols have their addresses by a rule. -/
def relocated (first : Nat) (base : Addr) (strict : Bool) (rule : Rule) (rs : List Relocation) (buf : Bytes) :
    Except Error (Bytes × Tally) :=
  let o := applyChunk first base strict (fun i => Act.ofExcept (rule i)) rs (buf, ())
  o.result.map fun t => (o.state.1, t)

/-- A buffer relocated with one call for each batch of the table. -/
def relocatedInBatches (first : Nat) (base : Addr) (strict : Bool) (rule : Rule) :
    List (List Relocation) → Bytes → Except Error (Bytes × Tally)
  | [], buf => .ok (buf, .zero)
  | batch :: batches, buf => do
    let p ← relocated first base strict rule batch buf
    let q ← relocatedInBatches first base strict rule batches p.1
    return (q.1, p.2.add q.2)

/-- A chunk of a section, and the batches in which it takes the table. -/
structure Piece where
  bytes : Bytes
  batches : List (List Relocation)

/-- Chunks relocated one after the other, each with its own batches, and put side by side. -/
def relocatedInChunks (base : Addr) (strict : Bool) (rule : Rule) :
    Nat → List Piece → Except Error (Bytes × Tally)
  | _, [] => .ok (#[], .zero)
  | first, c :: cs => do
    let p ← relocatedInBatches first base strict rule c.batches c.bytes
    let q ← relocatedInChunks base strict rule (first + c.bytes.size) cs
    return (p.1 ++ q.1, p.2.add q.2)

/-- Section offsets at which one chunk ends and another begins. -/
def cuts : Nat → List Bytes → List Nat
  | _, [] => []
  | _, [_] => []
  | first, b :: c :: bs => (first + b.size) :: cuts (first + b.size) (c :: bs)

/-- A chunk is linked and its entries are counted. -/
lemma applyChunk_counts (base : Addr) (strict : Bool) (rule : Rule) (rs : List Relocation)
    (hsize : first + buf.size < sizeLimit) :
    Sat (applyChunk first base strict (fun i => Act.ofExcept (rule i)) rs) (buf, ())
      (fun u w => linkAll first base strict rule rs buf = .ok w.1 ∧ u = tally first buf.size rs)
      fun e _ => linkAll first base strict rule rs buf = .error e := by
  have hresolve : ∀ i (s : Unit), True → Yields (Act.ofExcept (rule i)) s (rule i) fun _ => True :=
    fun i s _ => sat_ofExcept (fun _ h => ⟨h, trivial⟩) fun _ h => ⟨h, trivial⟩
  refine ((applyChunk_sat hresolve trivial hsize).and (applyChunk_tally _ buf ())).mono ?_ ?_
  · rintro u w ⟨⟨hlink, -⟩, htally⟩
    exact ⟨hlink, htally⟩
  · rintro e w ⟨⟨hlink, -⟩, -⟩
    exact hlink

lemma relocated_eq (hsize : first + buf.size < sizeLimit) :
    relocated first base strict rule rs buf =
      (linkAll first base strict rule rs buf).map fun out => (out, tally first buf.size rs) := by
  have hcounts := applyChunk_counts base strict rule rs hsize
  unfold relocated
  rcases happly : applyChunk first base strict (fun i => Act.ofExcept (rule i)) rs (buf, ()) with
    ⟨e | t, ⟨out, ⟨⟩⟩, es⟩
  · rw [hcounts.of_error happly]
    rfl
  · obtain ⟨hlink, rfl⟩ := hcounts.of_ok happly
    rw [hlink]
    rfl

/-- Batches make no difference to a buffer. -/
lemma relocatedInBatches_eq {batches : List (List Relocation)} (hsize : first + buf.size < sizeLimit) :
    relocatedInBatches first base strict rule batches buf =
      relocated first base strict rule batches.flatten buf := by
  rw [relocated_eq hsize]
  induction batches generalizing buf with
  | nil => rfl
  | cons batch batches ih =>
    rw [relocatedInBatches, relocated_eq hsize, List.flatten_cons, linkAll_append, tally_append]
    rcases hlink : linkAll first base strict rule batch buf with e | b
    · rfl
    have hb := size_linkAll hlink
    have hrest := ih (hb.symm ▸ hsize : first + b.size < sizeLimit)
    rw [hb] at hrest
    show (relocatedInBatches first base strict rule batches b >>= _) =
      (linkAll first base strict rule batches.flatten b).map _
    rw [hrest]
    rcases linkAll first base strict rule batches.flatten b with e | out
    · rfl
    · rfl

lemma relocated_ok_iff (hsize : first + buf.size < sizeLimit) :
    relocated first base strict rule rs buf = .ok (out, t) ↔
      linkAll first base strict rule rs buf = .ok out ∧ t = tally first buf.size rs := by
  rw [relocated_eq hsize]
  rcases linkAll first base strict rule rs buf with e | b
  · constructor
    · rintro ⟨⟩
    · rintro ⟨⟨⟩, _⟩
  · constructor
    · rintro ⟨⟩
      exact ⟨rfl, rfl⟩
    · rintro ⟨⟨⟩, rfl⟩
      rfl

/-- The first chunk and the others succeed, each on its own. -/
lemma relocatedInChunks_cons_iff {c : Piece} {cs : List Piece} :
    relocatedInChunks base strict rule first (c :: cs) = .ok (out, t) ↔
      ∃ l u r v, relocatedInBatches first base strict rule c.batches c.bytes = .ok (l, u) ∧
        relocatedInChunks base strict rule (first + c.bytes.size) cs = .ok (r, v) ∧
        out = l ++ r ∧ t = u.add v := by
  rw [relocatedInChunks]
  rcases relocatedInBatches first base strict rule c.batches c.bytes with e | ⟨l, u⟩
  · constructor
    · rintro ⟨⟩
    · rintro ⟨_, _, _, _, ⟨⟩, _⟩
  rcases relocatedInChunks base strict rule (first + c.bytes.size) cs with e | ⟨r, v⟩
  · constructor
    · rintro ⟨⟩
    · rintro ⟨_, _, _, _, _, ⟨⟩, _⟩
  · constructor
    · rintro ⟨⟩
      exact ⟨l, u, r, v, rfl, rfl, rfl, rfl⟩
    · rintro ⟨_, _, _, _, ⟨⟩, ⟨⟩, rfl, rfl⟩
      rfl

/-- **Chunks.** Where no field straddles a cut, a section relocated with one call and the section relocated
in chunks, each with batches of its own, succeed together, and then they have the same bytes and count the
same. -/
theorem relocated_iff_inChunks {chunks : List Piece}
    (hsize : first + (Bytes.joined (chunks.map (·.bytes))).size < sizeLimit)
    (hbatches : ∀ c ∈ chunks, c.batches.flatten = rs)
    (hcuts : ∀ r ∈ rs, ∀ b ∈ cuts first (chunks.map (·.bytes)), ¬ r.Straddles b) :
    relocated first base strict rule rs (Bytes.joined (chunks.map (·.bytes))) = .ok (out, t) ↔
      relocatedInChunks base strict rule first chunks = .ok (out, t) := by
  induction chunks generalizing first out t with
  | nil =>
    rw [relocated_eq hsize]
    show (linkAll first base strict rule rs #[]).map _ = _ ↔ _
    rw [linkAll_empty]
    show Except.ok (#[], tally first 0 rs) = _ ↔ _
    rw [tally_empty, relocatedInChunks]
  | cons c cs ih =>
    have hjoined : Bytes.joined ((c :: cs).map (·.bytes)) =
        c.bytes ++ Bytes.joined (cs.map (·.bytes)) := rfl
    rw [hjoined, Array.size_append] at hsize
    have hfirst : relocatedInBatches first base strict rule c.batches c.bytes =
        relocated first base strict rule rs c.bytes := by
      rw [relocatedInBatches_eq (by omega), hbatches c (.head _)]
    rw [relocatedInChunks_cons_iff, hjoined, hfirst]
    cases cs with
    | nil =>
      show relocated first base strict rule rs (c.bytes ++ #[]) = _ ↔ _
      rw [Array.append_empty]
      constructor
      · exact fun h => ⟨out, t, #[], .zero, h, rfl, (Array.append_empty).symm, rfl⟩
      · rintro ⟨l, u, _, _, h, ⟨⟩, rfl, rfl⟩
        exact h
    | cons d ds =>
      have hcut : ∀ r ∈ rs, ¬ r.Straddles (first + c.bytes.size) := fun r hr => hcuts r hr _ (.head _)
      have hrest : ∀ r v, relocated (first + c.bytes.size) base strict rule rs
          (Bytes.joined ((d :: ds).map (·.bytes))) = .ok (r, v) ↔
            relocatedInChunks base strict rule (first + c.bytes.size) (d :: ds) = .ok (r, v) :=
        fun r v => ih (by omega) (fun e he => hbatches e (.tail _ he))
          fun r hr b hb => hcuts r hr b (.tail _ hb)
      have hleft : first + c.bytes.size < sizeLimit := by omega
      rw [relocated_ok_iff (by rw [Array.size_append]; exact hsize), linkAll_split hcut, Array.size_append,
        tally_cut hcut]
      constructor
      · rintro ⟨⟨l, r, hl, hr, rfl⟩, rfl⟩
        exact ⟨l, _, r, _, (relocated_ok_iff hleft).2 ⟨hl, rfl⟩,
          (hrest r _).1 ((relocated_ok_iff (by omega)).2 ⟨hr, rfl⟩), rfl, rfl⟩
      · rintro ⟨l, u, r, v, hl, hr, rfl, rfl⟩
        obtain ⟨hl', rfl⟩ := (relocated_ok_iff hleft).1 hl
        obtain ⟨hr', rfl⟩ := (relocated_ok_iff (by omega)).1 ((hrest r v).2 hr)
        exact ⟨⟨l, r, hl', hr', rfl⟩, rfl⟩

/-- Words in another order than in the section, two of which overlap, and an entry of an unknown type. -/
def mixed : List Relocation := [⟨9, 0x102⟩, ⟨2, 0x202⟩, ⟨4, 0xff⟩, ⟨0, 0x302⟩]

/-- Two chunks of eight bytes, one of which takes the table in one batch and the other in three. -/
def halves : List Piece :=
  [⟨.zeros 8, [mixed]⟩, ⟨.zeros 8, [[⟨9, 0x102⟩], [⟨2, 0x202⟩, ⟨4, 0xff⟩], [⟨0, 0x302⟩]]⟩]

/-- No field reaches from one chunk into the other, and both ways give the same bytes and counts. -/
theorem relocated_iff_inChunks_halves :
    ∃ out, relocated 0 0 false (fun i => .ok (UInt32.ofNat (0xff * i))) mixed
        (Bytes.joined (halves.map (·.bytes))) = .ok (out, ⟨3, 1⟩) ∧
      relocatedInChunks 0 false (fun i => .ok (UInt32.ofNat (0xff * i))) 0 halves =
        .ok (out, ⟨3, 1⟩) := by
  have hwhole : relocated 0 0 false (fun i => .ok (UInt32.ofNat (0xff * i))) mixed
      (Bytes.joined (halves.map (·.bytes))) =
        .ok (#[0xfd, 0x02, 0xfe, 1, 0, 0, 0, 0, 0, 0xff, 0, 0, 0, 0, 0, 0], ⟨3, 1⟩) := by decide +kernel
  exact ⟨_, hwhole, (relocated_iff_inChunks (by decide +kernel) (by decide) (by decide)).1 hwhole⟩

end Relocation

end FlashLink
