/-
Module: HftAlgorithms.Lib.Assured
Purpose: Assume-guarantee reasoning about the inputs a machine has taken so far:
  if each of them met an assumption where it was taken, every state on the way
  was safe and the last one is known.
Trusted boundary: none
Main exports: StateMachine.Assured, StateMachine.Assured.snoc,
  StateMachine.Assured.weaken
-/
import HftAlgorithms.Lib.StateMachine

namespace StateMachine

variable {σ ι : Type*}

/-- If every input meets `assumed` where it is taken, every state on the way is `safe` and the last
one satisfies `post`. -/
def Assured (next : σ → ι → σ) (assumed : σ → ι → Prop) (safe : σ → Prop) (start : σ)
    (inputs : List ι) (post : σ → Prop) : Prop :=
  Along next assumed start inputs →
    (∀ earlier, earlier <+: inputs → safe (earlier.foldl next start)) ∧
      post (inputs.foldl next start)

variable {next : σ → ι → σ} {assumed : σ → ι → Prop} {safe pre post : σ → Prop} {start : σ}
  {inputs : List ι}

theorem assured_nil (isSafe : safe start) (holds : post start) :
    Assured next assumed safe start [] post := by
  intro _
  refine ⟨?_, holds⟩
  intro earlier isPrefix
  rw [List.prefix_nil.mp isPrefix]
  exact isSafe

/-- One more input. -/
theorem Assured.snoc {input : ι} (before : Assured next assumed safe start inputs pre)
    (step : pre (inputs.foldl next start) → safe (inputs.foldl next start) →
      assumed (inputs.foldl next start) input →
      safe (next (inputs.foldl next start) input) ∧ post (next (inputs.foldl next start) input)) :
    Assured next assumed safe start (inputs ++ [input]) post := by
  intro run
  obtain ⟨sofar, last⟩ := (along_append start inputs [input]).mp run
  obtain ⟨everywhere, here⟩ := before sofar
  obtain ⟨safeNext, postNext⟩ := step here (everywhere inputs List.prefix_rfl) last.1
  have reached : (inputs ++ [input]).foldl next start = next (inputs.foldl next start) input :=
    List.foldl_concat next start input inputs
  rw [← reached] at safeNext postNext
  refine ⟨?_, postNext⟩
  intro earlier isPrefix
  rcases List.prefix_concat_iff.mp isPrefix with whole | within
  · rw [whole]
    exact safeNext
  · exact everywhere earlier within

/-- What follows from the known, in a safe state, is known. -/
theorem Assured.weaken (before : Assured next assumed safe start inputs pre)
    (implies : pre (inputs.foldl next start) → safe (inputs.foldl next start) →
      post (inputs.foldl next start)) : Assured next assumed safe start inputs post := by
  intro run
  obtain ⟨everywhere, here⟩ := before run
  exact ⟨everywhere, implies here (everywhere inputs List.prefix_rfl)⟩

end StateMachine
