import TokenKeeper.Files.TokenFile
import TokenKeeper.Token.Channel

/-!
# Sinks

Where the refresh loop puts its tokens: a channel that the proxy reads, a file, or a list that keeps
every token.
-/

namespace TokenKeeper

/-- A sink with its state. -/
inductive Sink where
  | channel (c : Channel)
  | file (f : TokenFile) (tree : FileTree)
  /-- A sink of the given name that keeps what it accepts, in order. -/
  | list (name : String) (accepted : List Token)
deriving DecidableEq, Repr

namespace Sink

/-- The name of a sink in metrics. -/
def mode : Sink → String
  | channel _ => Channel.mode
  | file .. => TokenFile.mode
  | list name _ => name

/-- Publish a token. -/
def publish (t : Token) : Sink → Except Error Unit × Sink
  | channel c => (.ok (), channel (c.write t))
  | file f tree =>
    let (result, tree) := f.publish t tree
    (result, file f tree)
  | list name accepted => (.ok (), list name (accepted ++ [t]))

@[simp] theorem mode_publish (t : Token) (s : Sink) : (s.publish t).2.mode = s.mode := by
  cases s <;> rfl

/-- A sink fails only by not writing its file. -/
theorem exists_of_publish_eq_error {t : Token} {s : Sink} {e : Error}
    (h : (s.publish t).1 = .error e) : ∃ path fault, e = .publish path fault := by
  rcases s with c | ⟨f, tree⟩ | ⟨name, accepted⟩
  · cases h
  · simp only [publish, TokenFile.publish] at h
    split at h
    · rename_i e' hstage
      obtain rfl := Except.error.inj h
      obtain ⟨fault, rfl⟩ := TokenFile.exists_of_stage_eq_error hstage
      exact ⟨_, fault, rfl⟩
    · split at h
      · rename_i e' hcommit
        obtain rfl := Except.error.inj h
        obtain ⟨fault, rfl⟩ := TokenFile.exists_of_commit_eq_error hcommit
        exact ⟨_, fault, rfl⟩
      · cases h
  · cases h

end Sink

end TokenKeeper
