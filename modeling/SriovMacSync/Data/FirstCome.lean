import Mathlib.Data.List.Basic
import Mathlib.Data.List.Induction

namespace SriovMacSync.Data

/-! First come, first served: candidates are seen in order, and each is taken unless
one that was taken before it is a rival. -/

variable {α : Type} (rivals : α → α → Prop)

section

variable [DecidableRel rivals]

def firstCome : List α → List α → List α
  | taken, [] => taken
  | taken, candidate :: rest =>
      if ∃ earlier ∈ taken, rivals earlier candidate then firstCome taken rest
      else firstCome (taken ++ [candidate]) rest

theorem firstCome_append (taken candidates more : List α) :
    firstCome rivals taken (candidates ++ more) =
      firstCome rivals (firstCome rivals taken candidates) more := by
  induction candidates generalizing taken with
  | nil => rfl
  | cons candidate rest ih =>
      rw [List.cons_append, firstCome, firstCome]
      split <;> exact ih _

theorem mem_firstCome_of_taken {taken candidates : List α} {value : α} (early : value ∈ taken) :
    value ∈ firstCome rivals taken candidates := by
  induction candidates generalizing taken with
  | nil => exact early
  | cons candidate rest ih =>
      rw [firstCome]
      split
      · exact ih early
      · exact ih (List.mem_append_left _ early)

theorem mem_of_mem_firstCome {taken candidates : List α} {value : α}
    (chosen : value ∈ firstCome rivals taken candidates) : value ∈ taken ∨ value ∈ candidates := by
  induction candidates generalizing taken with
  | nil => exact .inl chosen
  | cons candidate rest ih =>
      rw [firstCome] at chosen
      split at chosen
      · exact (ih chosen).imp_right (List.mem_cons_of_mem _)
      · rcases ih chosen with early | late
        · rcases List.mem_append.mp early with early | same
          · exact .inl early
          · exact .inr (List.mem_singleton.mp same ▸ List.mem_cons_self)
        · exact .inr (List.mem_cons_of_mem _ late)

/-- Whoever is turned away has a rival that was taken. -/
theorem firstCome_answers {taken candidates : List α} {candidate : α}
    (listed : candidate ∈ candidates) :
    candidate ∈ firstCome rivals taken candidates ∨
      ∃ earlier ∈ firstCome rivals taken candidates, rivals earlier candidate := by
  induction candidates generalizing taken with
  | nil => cases listed
  | cons first rest ih =>
      rw [firstCome]
      cases listed with
      | head =>
          split
          · rename_i rivalled
            obtain ⟨earlier, member, rival⟩ := rivalled
            exact .inr ⟨earlier, mem_firstCome_of_taken rivals member, rival⟩
          · exact .inl (mem_firstCome_of_taken rivals (by simp))
      | tail _ later => split <;> exact ih later

/-- Nobody is taken behind a rival. -/
theorem firstCome_pairwise {taken candidates : List α}
    (apart : taken.Pairwise fun earlier later => ¬ rivals earlier later) :
    (firstCome rivals taken candidates).Pairwise fun earlier later => ¬ rivals earlier later := by
  induction candidates generalizing taken with
  | nil => exact apart
  | cons candidate rest ih =>
      rw [firstCome]
      split
      · exact ih apart
      · rename_i free
        refine ih (List.pairwise_append.mpr ⟨apart, List.pairwise_singleton .., ?_⟩)
        intro earlier member later same rival
        obtain rfl := List.mem_singleton.mp same
        exact free ⟨earlier, member, rival⟩

end

/-- Who is entitled to a place: whoever no entitled earlier candidate rivals. -/
def FirstServed (candidates : List α) (stands : α → Prop) : Prop :=
  ∀ front candidate back, candidates = front ++ candidate :: back →
    (stands candidate ↔ ∀ earlier ∈ front, stands earlier → ¬ rivals earlier candidate)

variable {rivals} {candidates : List α} {stands : α → Prop}

theorem FirstServed.init {last : α} (served : FirstServed rivals (candidates ++ [last]) stands) :
    FirstServed rivals candidates stands := by
  intro front candidate back split
  exact served front candidate (back ++ [last]) (by rw [split]; simp)

variable [DecidableRel rivals]

/-- The places go to those entitled to them. -/
theorem firstCome_eq_filter [DecidablePred stands] (served : FirstServed rivals candidates stands) :
    firstCome rivals [] candidates = candidates.filter stands := by
  induction candidates using List.reverseRecOn with
  | nil => rfl
  | append_singleton candidates last ih =>
      have entitled := served candidates last [] rfl
      have taken : (∃ earlier ∈ candidates.filter stands, rivals earlier last) ↔ ¬ stands last := by
        rw [entitled]
        simp [List.mem_filter, and_assoc]
      rw [firstCome_append, ih served.init, List.filter_append, firstCome]
      by_cases stays : stands last
      · rw [if_neg (fun rivalled => taken.mp rivalled stays)]
        simp [firstCome, stays]
      · rw [if_pos (taken.mpr stays)]
        simp [firstCome, stays]

/-- Whatever the order, somebody is entitled to each place. -/
theorem firstServed_firstCome (distinct : candidates.Nodup) :
    FirstServed rivals candidates (· ∈ firstCome rivals [] candidates) := by
  rintro front candidate back rfl
  obtain ⟨-, -, apart⟩ := List.nodup_append.mp distinct
  obtain ⟨fresh, -⟩ := List.nodup_cons.mp (List.nodup_append.mp distinct).2.1
  have inFront {value : α} (member : value ∈ front) :
      value ∈ firstCome rivals [] (front ++ candidate :: back) ↔
        value ∈ firstCome rivals [] front := by
    rw [firstCome_append]
    refine ⟨fun chosen => ?_, mem_firstCome_of_taken rivals⟩
    exact (mem_of_mem_firstCome rivals chosen).resolve_right fun late =>
      apart _ member _ late rfl
  have entitled : candidate ∈ firstCome rivals [] (front ++ candidate :: back) ↔
      ¬ ∃ earlier ∈ firstCome rivals [] front, rivals earlier candidate := by
    rw [firstCome_append, firstCome]
    split
    · rename_i rivalled
      refine ⟨fun chosen => ?_, fun free => absurd rivalled free⟩
      rcases mem_of_mem_firstCome rivals chosen with early | late
      · have listed := (mem_of_mem_firstCome rivals early).resolve_left List.not_mem_nil
        exact absurd rfl (apart _ listed _ List.mem_cons_self)
      · exact absurd late fresh
    · rename_i free
      exact ⟨fun _ => free, fun _ => mem_firstCome_of_taken rivals (by simp)⟩
  refine entitled.trans ⟨fun free earlier member chosen rivalled =>
    free ⟨earlier, (inFront member).mp chosen, rivalled⟩, ?_⟩
  rintro free ⟨earlier, chosen, rivalled⟩
  have listed := (mem_of_mem_firstCome rivals chosen).resolve_left List.not_mem_nil
  exact free earlier listed ((inFront listed).mpr chosen) rivalled

end SriovMacSync.Data
