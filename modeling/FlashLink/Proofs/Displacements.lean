import FlashLink.Proofs.Applying

/-!
The displacement in a refusal. A call is refused on the integer distance from its place to its symbol,
which takes a bit more than 32 bits, and the refusal carries 32 of them. The two are the same as long as
the distance is a signed word. Beyond that the report is a full turn of the address space off, and may
even be a displacement that a call can hold.
-/

namespace FlashLink

namespace Relocation

open Act

variable {σ : Type} {resolve : Nat → Act σ Addr} {r : Relocation} {s : σ} {target : Addr} {d : Int}

/-- A distance is off by the addend from one between two addresses. -/
lemma distance_bounds {addend : Int} (place : Addr) (h : Branch.inRange addend) :
    -2 ^ 32 - 2 ^ 24 < distance target addend place ∧
      distance target addend place < 2 ^ 32 + 2 ^ 24 := by
  have htarget := target.toNat_lt
  have hplace := place.toNat_lt
  rw [Branch.inRange_iff] at h
  unfold distance
  omega

/-! ### What a refusal says -/

/-- The displacement that is reported in place of `d`. -/
structure Reported (d : Int) (reported : Int32) : Prop where
  exact : -2 ^ 31 ≤ d → d < 2 ^ 31 → reported.toInt = d
  below : d < -2 ^ 31 → reported.toInt = d + 2 ^ 32
  above : 2 ^ 31 ≤ d → reported.toInt = d - 2 ^ 32

lemma reported_ofInt (hlower : -2 ^ 32 - 2 ^ 24 < d) (hupper : d < 2 ^ 32 + 2 ^ 24) :
    Reported d (Int32.ofInt d) := by
  have hturn : (Int32.ofInt d).toInt = d.bmod (2 ^ 32) := Int32.toInt_ofInt
  rw [Int.bmod_def] at hturn
  constructor <;> intros <;> rw [hturn] <;> split_ifs <;> omega

/-- The report is right exactly if the distance is a signed word. -/
lemma Reported.right_iff {reported : Int32} (h : Reported d reported) :
    reported.toInt = d ↔ -2 ^ 31 ≤ d ∧ d < 2 ^ 31 := by
  obtain ⟨hexact, hbelow, habove⟩ := h
  omega

/-- A call could hold the report of a distance out of range exactly if the distance is about a full turn. -/
lemma Reported.inRange_iff {reported : Int32} (h : Reported d reported) (hrange : ¬ Branch.inRange d)
    (hlower : -2 ^ 32 - 2 ^ 24 < d) (hupper : d < 2 ^ 32 + 2 ^ 24) :
    Branch.inRange reported.toInt ↔ d < -2 ^ 32 + 2 ^ 24 ∨ 2 ^ 32 - 2 ^ 24 ≤ d := by
  obtain ⟨hexact, hbelow, habove⟩ := h
  rw [Branch.inRange_iff] at hrange ⊢
  omega

/-! ### Who refuses -/

/-- What needs no address is not refused for its distance. -/
lemma apply_unlinked (base : Addr) (strict : Bool) {first : Nat} {buf : Bytes}
    (h : ¬ (inside first buf.size r ∧ r.Linking)) :
    Sat (r.apply first base strict resolve) (buf, s) (fun _ _ => True)
      fun e _ => ∀ offset reported, e ≠ .relocationRange offset reported := by
  unfold apply
  refine Sat.get_bind ?_
  by_cases hin : inside first buf.size r
  · obtain ⟨hfirst, hfits⟩ := fits_of_inside hin
    rw [if_pos (by simp only [hfirst, hfits, decide_true, Bool.and_self])]
    rcases hkind : r.kind
    · trivial
    · exact (h ⟨hin, .inl hkind⟩).elim
    · exact (h ⟨hin, .inr hkind⟩).elim
    · cases strict
      · trivial
      · rintro offset reported ⟨⟩
  · rw [inside_iff, stop] at hin
    rw [if_neg (by simp only [Bool.and_eq_true, decide_eq_true_eq]; omega)]
    rintro offset reported ⟨⟩

/-- Where the symbol has an address, calls out of range are refused and nothing else is. -/
lemma apply_refused (htarget : (resolve r.symbol s).result = .ok target) (first : Nat) (base : Addr)
    (strict : Bool) (buf : Bytes)
    (hd : distance target (Branch.decode (buf.u16 (r.start - first)) (buf.u16 (r.start - first + 2)))
      (base + r.offset) = d) (offset : Nat) (reported : Int32) :
    (r.apply first base strict resolve (buf, s)).result = .error (.relocationRange offset reported) ↔
      (inside first buf.size r ∧ r.kind = .call ∧ ¬ Branch.inRange d) ∧
        offset = r.start ∧ reported = Int32.ofInt d := by
  have hrule : (fun i => (resolve i s).result) r.symbol = .ok target := htarget
  by_cases hasks : inside first buf.size r ∧ r.Linking
  · obtain ⟨hin, hkind | hkind⟩ := hasks
    · rw [apply_asking hin (.inl hkind), link_absolute hin hkind hrule]
      simp [hkind]
    · rw [apply_asking hin (.inr hkind), link_call hin hkind hrule, callField_eq hd]
      by_cases hrange : Branch.inRange d
      · simp [hrange, Except.mapError, Except.map]
      · simp [hrange, hin, hkind, Except.mapError, Except.map, eq_comm]
  · refine iff_of_false (fun herror => ?_) fun h => hasks ⟨h.1.1, .inr h.1.2.1⟩
    exact (apply_unlinked base strict hasks).of_failure herror offset reported rfl

/-- What is refused is left as it was. -/
lemma apply_failed {first : Nat} {base : Addr} {strict : Bool} {buf : Bytes} {e : Error}
    (hin : inside first buf.size r) (hlinking : r.Linking)
    (h : (r.apply first base strict resolve (buf, s)).result = .error e) :
    (r.apply first base strict resolve (buf, s)).state = (buf, (resolve r.symbol s).state) := by
  rw [apply_asking hin hlinking] at h ⊢
  rcases hlink : link first base strict (fun i => (resolve i s).result) buf r with e' | out
  · rfl
  · rw [hlink] at h
    cases h

/-- **What a refusal reports.** Where the symbol of an entry has an address, the entry is refused for its
distance exactly if it is a call in the buffer whose distance no call can hold. Then the buffer is as it
was, and the refusal names the offset of the call and a displacement. This is the distance, and out of range
like it, as long as the distance is a signed word. Otherwise, and only then, it differs: it is a full turn
off, and a call could hold it exactly if the distance is within a call's reach of a full turn. -/
theorem refusal_reports (htarget : (resolve r.symbol s).result = .ok target) (first : Nat) (base : Addr)
    (strict : Bool) (buf : Bytes) :
    let i := r.start - first
    let addend := Branch.decode (buf.u16 i) (buf.u16 (i + 2))
    let d := (target.toNat : Int) + addend - (base + r.offset).toNat
    let o := r.apply first base strict resolve (buf, s)
    ((∃ offset reported, o.result = .error (.relocationRange offset reported)) ↔
      inside first buf.size r ∧ r.kind = .call ∧ ¬ Branch.inRange d) ∧
    ∀ offset reported, o.result = .error (.relocationRange offset reported) →
      o.state = (buf, (resolve r.symbol s).state) ∧
      offset = r.start ∧
      Reported d reported ∧
      (reported.toInt = d ↔ -2 ^ 31 ≤ d ∧ d < 2 ^ 31) ∧
      (reported.toInt = d → ¬ Branch.inRange reported.toInt) ∧
      (Branch.inRange reported.toInt ↔ d < -2 ^ 32 + 2 ^ 24 ∨ 2 ^ 32 - 2 ^ 24 ≤ d) := by
  intro i addend d o
  have hrefused := apply_refused htarget first base strict buf (d := d) rfl
  constructor
  · constructor
    · rintro ⟨offset, reported, h⟩
      exact ((hrefused offset reported).1 h).1
    · exact fun h => ⟨r.start, Int32.ofInt d, (hrefused _ _).2 ⟨h, rfl, rfl⟩⟩
  · intro offset reported h
    obtain ⟨⟨hin, hkind, hrange⟩, rfl, hreported⟩ := (hrefused offset reported).1 h
    have hbounds : -2 ^ 32 - 2 ^ 24 < d ∧ d < 2 ^ 32 + 2 ^ 24 :=
      distance_bounds (base + r.offset) (Branch.inRange_decode (buf.u16 i) (buf.u16 (i + 2)))
    obtain ⟨hlower, hupper⟩ := hbounds
    have hreport : Reported d reported := hreported ▸ reported_ofInt hlower hupper
    refine ⟨apply_failed hin (.inr hkind) h, rfl, hreport, hreport.right_iff, ?_,
      hreport.inRange_iff hrange hlower hupper⟩
    intro hexact
    rwa [hexact]

/-- A call whose addend is the largest there is. -/
def farCall : Bytes := #[0xff, 0xf3, 0xff, 0xd7]

/-- At the bottom of the address space, with a symbol at the top, the distance is a full turn and more. The
report is a displacement that a call can hold. -/
theorem refusal_reports_farCall :
    let o := (⟨0, 0x10a⟩ : Relocation).apply 0 0 false (fun _ => Pure.pure 0xffffffff) (farCall, ())
    o.result = .error (.relocationRange 0 0xfffffd) ∧ o.state = (farCall, ()) ∧
      Branch.decode (farCall.u16 0) (farCall.u16 2) = 0xfffffe ∧
      Reported 0x100fffffd 0xfffffd ∧ Branch.inRange (0xfffffd : Int32).toInt := by
  have h := @refusal_reports Unit (fun _ => Pure.pure 0xffffffff) ⟨0, 0x10a⟩ () 0xffffffff rfl 0 0 false
    farCall
  have hresult : ((⟨0, 0x10a⟩ : Relocation).apply 0 0 false (fun _ => Pure.pure 0xffffffff)
      (farCall, ())).result = .error (.relocationRange 0 0xfffffd) := rfl
  obtain ⟨hstate, -, hreported, -, -, hrange⟩ := h.2 0 0xfffffd hresult
  exact ⟨hresult, hstate, by decide, hreported, hrange.2 (by decide)⟩

end Relocation

end FlashLink
