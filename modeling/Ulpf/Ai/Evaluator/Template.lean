import Ulpf.Ai.Drain

open Result ulpf_ai.drain

namespace ulpf_ai.evaluator.EvaluatorEngine

/-- Whether a template is a token-aligned generalization of the masked line, with a syslog tag of
    the ground truth kept. -/
def template_is_valid (crates : Crates) (raw template gt_template : List Char) : Result Bool :=
  if template.isEmpty then ok false
  else do
    let masked ← LogMasker.mask crates raw
    let masked_tokens := DrainMiner.tokenize masked
    let tmpl_tokens := DrainMiner.tokenize template
    if tmpl_tokens.length ≠ masked_tokens.length then ok false
    else if !(tmpl_tokens.zip masked_tokens).all fun pair => pair.1 = WILDCARD || pair.1 = pair.2 then
      ok false
    else if gt_template.head? = some '%' && !str.contains gt_template template then ok false
    else ok true

theorem template_is_valid_ne_panic (crates : Crates) (raw template gt_template : List Char) :
    template_is_valid crates raw template gt_template ≠ panic := by
  rw [template_is_valid]
  split
  · simp
  · refine bind_ne_panic (LogMasker.mask_ne_panic crates raw) fun masked => ?_
    dsimp only
    split_ifs <;> simp

end ulpf_ai.evaluator.EvaluatorEngine
