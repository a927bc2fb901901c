import RecordSheet.Proofs.Files.Tree
import RecordSheet.Proofs.Run.Stages
import RecordSheet.Proofs.Settings.SavedText

namespace RecordSheet

open Utf8

namespace Settings

theorem run_save {s : Settings} {text : Text} (h : s.render? = some text) (path : Bytes)
    (t : Tree) : (s.save path : StateM Tree _).run t = match t.write path (encode text) with
      | .ok after => (.ok (), after)
      | .error e => (.error (.writing path e), t) := by
  rw [save, h]
  dsimp only
  rw [StateT.run_bind, run_writeFile]
  cases t.write path (encode text) with
  | ok after => rfl
  | error e => rfl

/--
Settings whose paths are texts are not saved only if nothing can be written there. Else the file has
them as they were, whatever was there before, and they are found where files of settings are.
-/
theorem load_save (output : Text) (input : Option Text) (path : Bytes) (t : Tree) :
    let s : Settings := ⟨encode output, input.map encode⟩
    (∃ e, t.target path = .error e ∧
      (s.save path : StateM Tree _).run t = (.error (.writing path e), t)) ∨
    ∃ after, (s.save path : StateM Tree _).run t = (.ok (), after) ∧
      (load path : StateM Tree _).run after = (.ok s, after) ∧
      ∀ directory, Path.join directory fileName = path →
        (discover none directory : StateM Tree _).run after = (.ok s, after) := by
  dsimp only
  have hsave := run_save (render?_encode output input) path t
  cases hwrite : t.write path (encode (Toml.assignments (pairs output input))) with
  | error e =>
    rw [hwrite] at hsave
    exact .inl ⟨e, Tree.write_eq_error_iff.1 hwrite, hsave⟩
  | ok after =>
    rw [hwrite] at hsave
    obtain ⟨_, _, _, hread⟩ := Tree.replaces_of_write hwrite
    have hsettings : after.settingsAt path = .ok ⟨encode output, input.map encode⟩ :=
      Tree.settingsAt_eq_ok_iff.2
        ⟨_, Tree.readText_eq_ok_iff.2 hread, ofText_assignments output input⟩
    refine .inr ⟨after, hsave, ?_, ?_⟩
    · rw [run_loadSettings, hsettings]
    · rintro directory rfl
      have hfile : after.isFile (Path.join directory fileName) = true := by
        rw [Tree.isFile, hread]
      rw [run_discover, Tree.settings, Tree.source, if_pos hfile]
      exact congrArg (·, after) hsettings

end Settings

end RecordSheet
