import OtaLink.Careful
import OtaLink.Effort
import OtaLink.KeyedUpdate
import OtaLink.ShellEnds

/-!
# The shell of a client with a key fails closed

The rules of the careful client carry over to the commands and to the shell: whatever answers,
everything on the link is permitted, and the outcomes that report a change of the device stand
for calls that were acknowledged under a session key, each packet of an update included. This
holds at every moment, so that it also holds where an exception ends the shell.

## Main definitions

* `updateCalls` — the protected calls of an update, in order.
* `ShellOutcome.calls` — the protected calls that an outcome reports.
* `shell_fails_closed` — the theorem.
-/

namespace OtaLink
open Lib

variable {β : Type} [Alphabet β]

/-- The block of an image that the client sends as chunk `k`. -/
def block (cfg : HostConfig β) (f : List β) (k : ℕ) : List β :=
  (f.drop (k * maxOtaChunkDataSize cfg)).take (maxOtaChunkDataSize cfg)

def dataCall (cfg : HostConfig β) (f : List β) (k : ℕ) : Command × List β :=
  (.otaData, le32 k ++ le32 (k * maxOtaChunkDataSize cfg) ++ block cfg f k)

/-- The protected calls of an update, in order. -/
def updateCalls (cfg : HostConfig β) (f : List β) : List (Command × List β) :=
  (.otaBegin, announcement f) ::
    ((List.range (chunkCount cfg f.length)).map (dataCall cfg f) ++ [(.otaEnd, [])])

/-- The protected calls that a line asks for. -/
def lineCalls (cfg : HostConfig β) (files : String → Option (File β)) :
    List String → List (Command × List β)
  | [] => []
  | command :: arguments =>
    match Verb.ofWord? command with
    | some .reboot => [(.reboot, [])]
    | some .rollback => [(.rollback, [])]
    | some .update =>
      match arguments with
      | [path] => (files path).elim [] fun file => updateCalls cfg file.content
      | _ => []
    | some .finish => [(.otaEnd, [])]
    | some .abort => [(.otaAbort, [])]
    | _ => []

/-- The user has asked for a call. -/
def AskedFor (cfg : HostConfig β) (typed : List (Line β)) (c : Command) (payload : List β) : Prop :=
  ∃ line ∈ typed, ∃ words, line.words = some words ∧ (c, payload) ∈ lineCalls cfg line.files words

/-- The protected calls that an outcome reports as done. -/
def ShellOutcome.calls (cfg : HostConfig β) : ShellOutcome β → List (Command × List β)
  | .rebootRequested => [(.reboot, [])]
  | .rollbackRequested => [(.rollback, [])]
  | .updated firmware => updateCalls cfg firmware
  | .finalized => [(.otaEnd, [])]
  | .aborted => [(.otaAbort, [])]
  | _ => []

/-- The calls for the first `k` blocks. -/
abbrev dataCalls (cfg : HostConfig β) (f : List β) (k : ℕ) : List (Command × List β) :=
  (List.range k).map (dataCall cfg f)

/-- The state of the loop over the blocks: `k` of them have been sent. -/
structure AtBlock (cfg : HostConfig β) (f : List β) (k sent : ℕ) (rest : List β) : Prop where
  rest_eq : rest = f.drop (k * maxOtaChunkDataSize cfg)
  sent_eq : rest ≠ [] → sent = k * maxOtaChunkDataSize cfg
  le : k ≤ chunkCount cfg f.length

section Chunks
variable {cfg : HostConfig β} {f rest : List β} {k sent : ℕ}

omit [Alphabet β] in
theorem AtBlock.start (cfg : HostConfig β) (f : List β) : AtBlock cfg f 0 0 f :=
  ⟨by simp, by simp, Nat.zero_le _⟩

omit [Alphabet β] in
theorem ne_nil_of_take (hne : rest.take (maxOtaChunkDataSize cfg) ≠ []) : rest ≠ [] := by
  rintro rfl
  exact hne List.take_nil

omit [Alphabet β] in
theorem AtBlock.lt (h : AtBlock cfg f k sent rest)
    (hne : rest.take (maxOtaChunkDataSize cfg) ≠ []) : k < chunkCount cfg f.length := by
  have hlt := List.length_pos_iff.mpr (ne_nil_of_take hne)
  rw [h.rest_eq, List.length_drop] at hlt
  rw [chunkCount, Nat.lt_iff_add_one_le, Nat.le_div_iff_mul_le (maxOtaChunkDataSize_pos cfg),
    Nat.add_mul]
  omega

omit [Alphabet β] in
/-- The whole image has been sent. -/
theorem AtBlock.over (h : AtBlock cfg f k sent rest)
    (hnil : rest.take (maxOtaChunkDataSize cfg) = []) : chunkCount cfg f.length = k := by
  have hpos := maxOtaChunkDataSize_pos cfg
  have hempty : rest = [] := by simpa [List.take_eq_nil_iff, hpos.ne'] using hnil
  have hlength := congrArg List.length (hempty.symm.trans h.rest_eq)
  rw [List.length_nil, List.length_drop] at hlength
  refine Nat.le_antisymm ?_ h.le
  rw [chunkCount, ← Nat.lt_add_one_iff, Nat.div_lt_iff_lt_mul hpos, Nat.add_mul]
  omega

omit [Alphabet β] in
/-- One block more. -/
theorem AtBlock.next (h : AtBlock cfg f k sent rest)
    (hne : rest.take (maxOtaChunkDataSize cfg) ≠ []) :
    AtBlock cfg f (k + 1) (sent + (rest.take (maxOtaChunkDataSize cfg)).length)
      (rest.drop (maxOtaChunkDataSize cfg)) := by
  refine ⟨?_, fun hmore => ?_, h.lt hne⟩
  · rw [h.rest_eq, List.drop_drop, Nat.add_mul, Nat.one_mul]
  · have hfull : maxOtaChunkDataSize cfg < rest.length := by
      rw [← List.length_pos_iff, List.length_drop] at hmore
      omega
    rw [h.sent_eq (ne_nil_of_take hne), List.length_take, Nat.min_eq_left hfull.le, Nat.add_mul,
      Nat.one_mul]

omit [Alphabet β] in
theorem length_drop_lt {fuel : ℕ} (hne : rest.take (maxOtaChunkDataSize cfg) ≠ [])
    (hfuel : rest.length < fuel + 1) :
    (rest.drop (maxOtaChunkDataSize cfg)).length < fuel := by
  have hpos := maxOtaChunkDataSize_pos cfg
  have hlt := List.length_pos_iff.mpr (ne_nil_of_take hne)
  rw [List.length_drop]
  omega

end Chunks

section Commands
variable {σ : Type} {E : Env Ask (Answer β) (Packet β) σ} {psk : List β}
  {asked : Command → List β → Prop} {calls : List (Command × List β)} {cfg : HostConfig β}
  {f : List β}

/-- A protected command. -/
theorem runCommand_performed (hkey : cfg.authKey = some psk) {c : Command} {payload : List β}
    (hc : c.isProtected = true) (ha : asked c payload) (x : Context) :
    Cautious E psk asked (fun t trace => Standing psk asked calls t trace)
      (runCommand cfg c payload x)
      (fun _ t trace => Standing psk asked (calls ++ [(c, payload)]) t trace)
      (fun _ t trace => Standing psk asked calls t trace) := by
  have h : Cautious E psk asked (fun t trace => Standing psk asked calls t trace)
      (runCommand cfg c payload x)
      (fun _ t trace => Standing psk asked (calls ++ protectedCall c payload) t trace)
      (fun _ t trace => Standing psk asked calls t trace) :=
    runCommand_cautious hkey (.inl ⟨hc, ha⟩) x
  rwa [protectedCall, if_pos hc] at h

/-! ## Updates -/

theorem Standing.of_prefix {done : List (Command × List β)} {t : HostState β}
    {trace : List (Spoken (Packet β))} (h : Standing psk asked done t trace)
    (hdone : calls <+: done) : Standing psk asked calls t trace := by
  obtain ⟨more, rfl⟩ := hdone
  exact h.fewer

section Update
variable {done : List (Command × List β)} (hdone : calls <+: done) (hkey : cfg.authKey = some psk)
  (hasked : ∀ call ∈ updateCalls cfg f, asked call.1 call.2)
include hkey hasked

theorem runUpdateBegin_cautious :
    Cautious E psk asked (fun t trace => Standing psk asked calls t trace) (runUpdateBegin cfg f)
      (fun _ t trace => Standing psk asked (calls ++ [(.otaBegin, announcement f)]) t trace)
      (fun _ t trace => Standing psk asked calls t trace) := by
  refine Task.Spec.ite (fun _ => Task.Spec.raise fun _ _ h => h) fun _ => ?_
  refine Task.Spec.bind (R := fun p t s => p = announcement f ∧ Standing psk asked calls t s.2) ?_
    fun p => Task.Spec.fact fun hp => ?_
  swap
  · have hbegin : asked .otaBegin p := hp ▸ hasked (.otaBegin, announcement f) List.mem_cons_self
    exact hp ▸ runCommand_performed hkey rfl hbegin _
  exact Task.Spec.ite (fun _ => Task.Spec.raise fun _ _ h => h)
    fun _ => Task.Spec.pure fun _ _ h => ⟨rfl, h⟩

include hdone

omit hkey hasked in
/-- The payload of a block. -/
theorem buildOtaDataPayload_cautious {k sent : ℕ} {rest : List β} (h : AtBlock cfg f k sent rest)
    (hne : rest.take (maxOtaChunkDataSize cfg) ≠ []) :
    Cautious E psk asked (fun t trace => Standing psk asked done t trace)
      (buildOtaDataPayload k sent (rest.take (maxOtaChunkDataSize cfg)))
      (fun p t trace => (Command.otaData, p) = dataCall cfg f k ∧ Standing psk asked done t trace)
      (fun _ t trace => Standing psk asked calls t trace) := by
  refine Task.Spec.ite (fun _ => Task.Spec.raise fun _ _ h => h.of_prefix hdone) fun _ =>
    Task.Spec.ite (fun _ => Task.Spec.raise fun _ _ h => h.of_prefix hdone) fun _ =>
    Task.Spec.ite (fun _ => Task.Spec.raise fun _ _ h => h.of_prefix hdone) fun _ =>
    Task.Spec.pure fun _ _ hs => ⟨?_, hs⟩
  rw [dataCall, block, ← h.rest_eq, h.sent_eq (ne_nil_of_take hne)]

/-- Its packet. -/
theorem dataCall_cautious {k : ℕ} {p : List β} (hk : k < chunkCount cfg f.length)
    (hp : (Command.otaData, p) = dataCall cfg f k) (x : Context) :
    Cautious E psk asked (fun t trace => Standing psk asked (done ++ dataCalls cfg f k) t trace)
      (runCommand cfg .otaData p x)
      (fun _ t trace => Standing psk asked (done ++ dataCalls cfg f (k + 1)) t trace)
      (fun _ t trace => Standing psk asked calls t trace) := by
  have hblock : asked .otaData p := by
    refine hasked (.otaData, p) (hp ▸ List.mem_cons_of_mem _ (List.mem_append_left _ ?_))
    exact List.mem_map_of_mem (List.mem_range.mpr hk)
  have hone : done ++ dataCalls cfg f (k + 1) = done ++ dataCalls cfg f k ++ [(.otaData, p)] := by
    rw [dataCalls, List.range_succ, List.map_append, List.map_singleton, ← hp, List.append_assoc]
  rw [hone]
  exact (runCommand_performed hkey rfl hblock _).consequence (fun _ _ h => h) (fun _ _ _ h => h)
    fun _ _ _ h => h.of_prefix (hdone.trans (List.prefix_append _ _))

/-- The loop after `k` blocks. -/
theorem sendChunks_cautious (fuel : ℕ) : ∀ (k sent : ℕ) (rest : List β),
    AtBlock cfg f k sent rest → rest.length < fuel →
    Cautious E psk asked (fun t trace => Standing psk asked (done ++ dataCalls cfg f k) t trace)
      (sendChunks cfg fuel k sent rest)
      (fun _ t trace => Standing psk asked
        (done ++ dataCalls cfg f (chunkCount cfg f.length)) t trace)
      (fun _ t trace => Standing psk asked calls t trace) := by
  induction fuel with
  | zero => exact fun _ _ _ _ h => absurd h (Nat.not_lt_zero _)
  | succ fuel ih =>
    intro k sent rest h hfuel
    refine Task.Spec.ite (fun hnil => ?_) (fun hne => ?_)
    · rw [h.over hnil]
      exact Task.Spec.pure fun _ _ h => h
    refine Task.Spec.bind
      (buildOtaDataPayload_cautious (hdone.trans (List.prefix_append _ _)) h hne)
      fun p => Task.Spec.fact fun hp => ?_
    exact Task.Spec.bind (dataCall_cautious hdone hkey hasked (h.lt hne) hp _) fun _ =>
      ih (k + 1) _ _ (h.next hne) (length_drop_lt hne hfuel)

omit hdone in
/-- Every packet of an update that ends in success has been acknowledged. -/
theorem cmdUpdate_cautious :
    Cautious E psk asked (fun t trace => Standing psk asked calls t trace) (cmdUpdate cfg f)
      (fun _ t trace => Standing psk asked (calls ++ updateCalls cfg f) t trace)
      (fun _ t trace => Standing psk asked calls t trace) := by
  have hbegun : calls <+: calls ++ [(.otaBegin, announcement f)] := List.prefix_append _ _
  have hdata : Cautious E psk asked
      (fun t trace => Standing psk asked (calls ++ [(.otaBegin, announcement f)]) t trace)
      (runUpdateData cfg f)
      (fun _ t trace => Standing psk asked (calls ++ [(.otaBegin, announcement f)] ++
        dataCalls cfg f (chunkCount cfg f.length)) t trace)
      (fun _ t trace => Standing psk asked calls t trace) :=
    (sendChunks_cautious hbegun hkey hasked (f.length + 1) 0 0 f (.start cfg f)
      (by omega)).consequence (fun _ _ h => by simpa [dataCalls] using h)
      (fun _ _ _ h => h) fun _ _ _ h => h
  have hend : asked .otaEnd [] := hasked (.otaEnd, []) (by simp [updateCalls])
  refine Task.Spec.bind (runUpdateBegin_cautious hkey hasked) fun _ =>
    Task.Spec.bind hdata fun _ => ?_
  refine (runCommand_performed hkey rfl hend _).consequence (fun _ _ h => h)
    (fun _ _ _ h => by simpa [updateCalls] using h)
    fun _ _ _ h => h.of_prefix (hbegun.trans (List.prefix_append _ _))

end Update

/-! ## Updates of the shell -/

/-- A command of the client, in the shell. -/
theorem client_cautious {α : Type} {x : HostTask β α}
    {P : HostState β → List (Spoken (Packet β)) → Prop}
    {Ok : α → HostState β → List (Spoken (Packet β)) → Prop}
    (h : Cautious E psk asked P x Ok (fun _ t trace => Standing psk asked calls t trace)) :
    Cautious E psk asked P (ShellTask.client x) Ok
      (fun _ t trace => Standing psk asked calls t trace) :=
  Task.Spec.recover h fun _ => Task.Spec.raise fun _ _ h => h

section File
variable {file : File β} {done : List (Command × List β)} (hdone : calls <+: done)
include hdone

/-- An access to a file says nothing. -/
theorem access_cautious (a : FileAccess) :
    Cautious E psk asked (fun t trace => Standing psk asked done t trace) (file.access a)
      (fun _ t trace => Standing psk asked done t trace)
      (fun _ t trace => Standing psk asked calls t trace) :=
  Task.Spec.ite (fun _ => Task.Spec.raise fun _ _ h => h.of_prefix hdone)
    fun _ => Task.Spec.pure fun _ _ h => h

theorem firmwareMetadata_cautious (again : Bool) :
    Cautious E psk asked (fun t trace => Standing psk asked done t trace)
      (firmwareMetadata file again) (fun _ t trace => Standing psk asked done t trace)
      (fun _ t trace => Standing psk asked calls t trace) :=
  Task.Spec.bind (access_cautious hdone _) fun _ =>
    Task.Spec.ite (fun _ => Task.Spec.raise fun _ _ h => h.of_prefix hdone)
      fun _ => access_cautious hdone _

/-- The loop after `k` blocks. -/
theorem shellUpdateChunks_cautious (hkey : cfg.authKey = some psk)
    (hasked : ∀ call ∈ updateCalls cfg file.content, asked call.1 call.2) (fuel : ℕ) :
    ∀ (k sent : ℕ) (rest : List β), AtBlock cfg file.content k sent rest → rest.length < fuel →
    Cautious E psk asked
      (fun t trace => Standing psk asked (done ++ dataCalls cfg file.content k) t trace)
      (shellUpdateChunks cfg file fuel k sent rest)
      (fun _ t trace => Standing psk asked
        (done ++ dataCalls cfg file.content (chunkCount cfg file.content.length)) t trace)
      (fun _ t trace => Standing psk asked calls t trace) := by
  induction fuel with
  | zero => exact fun _ _ _ _ h => absurd h (Nat.not_lt_zero _)
  | succ fuel ih =>
    intro k sent rest h hfuel
    have hblocks : calls <+: done ++ dataCalls cfg file.content k :=
      hdone.trans (List.prefix_append _ _)
    refine Task.Spec.bind (access_cautious hblocks _) fun _ =>
      Task.Spec.ite (fun hnil => ?_) (fun hne => ?_)
    · rw [h.over hnil]
      exact Task.Spec.pure fun _ _ h => h
    refine Task.Spec.bind (client_cautious (buildOtaDataPayload_cautious hblocks h hne))
      fun p => Task.Spec.fact fun hp => ?_
    exact Task.Spec.bind (client_cautious (dataCall_cautious hdone hkey hasked (h.lt hne) hp _))
      fun _ => ih (k + 1) _ _ (h.next hne) (length_drop_lt hne hfuel)

end File

/-! ## The shell -/

theorem runInfo_cautious (hkey : cfg.authKey = some psk) :
    Cautious E psk asked (fun t trace => Standing psk asked calls t trace) (runInfo cfg)
      (fun _ t trace => Standing psk asked calls t trace)
      (fun _ t trace => Standing psk asked calls t trace) := by
  refine Task.Spec.bind (R := fun _ t s => Standing psk asked calls t s.2) ?_ fun packet => ?_
  · refine Task.Spec.recover ((request_cautious hkey (.inr ⟨.inr rfl, rfl⟩)).consequence
      (fun _ _ h => h) (fun _ _ _ h => h.1) fun _ _ _ h => h) fun e => ?_
    cases e <;> exact Task.Spec.raise fun _ _ h => h
  · refine Task.Spec.ite (fun _ => Task.Spec.raise fun _ _ h => h) fun _ =>
      Task.Spec.ite (fun _ => Task.Spec.raise fun _ _ h => h) fun _ => ?_
    split
    · exact Task.Spec.pure fun _ _ h => h
    · exact Task.Spec.ite (fun _ => Task.Spec.raise fun _ _ h => h)
        fun _ => Task.Spec.raise fun _ _ h => h

section Lines
variable (hkey : cfg.authKey = some psk) {files : String → Option (File β)}
include hkey

/-- Every packet of an update that ends in success has been acknowledged. -/
theorem shellUpdate_cautious (arguments : List String)
    (hasked : ∀ path file, arguments = [path] → files path = some file →
      ∀ call ∈ updateCalls cfg file.content, asked call.1 call.2) :
    Cautious E psk asked (fun t trace => Standing psk asked calls t trace)
      (shellUpdate cfg files arguments)
      (fun outcome t trace => Standing psk asked (calls ++ outcome.calls cfg) t trace)
      (fun _ t trace => Standing psk asked calls t trace) := by
  unfold shellUpdate
  split
  swap
  · exact Task.Spec.pure fun _ _ h => by simpa [ShellOutcome.calls] using h
  rename_i path
  split
  · exact Task.Spec.pure fun _ _ h => by simpa [ShellOutcome.calls] using h
  rename_i file hfile
  have hcalls := hasked path file rfl hfile
  have hend : asked .otaEnd [] := hcalls (.otaEnd, []) (by simp [updateCalls])
  have hbegun : calls <+: calls ++ [(.otaBegin, announcement file.content)] :=
    List.prefix_append _ _
  -- The accesses before the first packet, and the packet.
  refine Task.Spec.bind (access_cautious (List.prefix_refl _) _) fun _ =>
    Task.Spec.bind (firmwareMetadata_cautious (List.prefix_refl _) _) fun _ => ?_
  have hbegin : Cautious E psk asked (fun t trace => Standing psk asked calls t trace)
      (shellUpdateBegin cfg file)
      (fun _ t trace =>
        Standing psk asked (calls ++ [(.otaBegin, announcement file.content)]) t trace)
      (fun _ t trace => Standing psk asked calls t trace) :=
    Task.Spec.bind (access_cautious (List.prefix_refl _) _) fun _ =>
      Task.Spec.bind (firmwareMetadata_cautious (List.prefix_refl _) _) fun _ =>
      client_cautious (runUpdateBegin_cautious hkey hcalls)
  have hdata : Cautious E psk asked
      (fun t trace =>
        Standing psk asked (calls ++ [(.otaBegin, announcement file.content)]) t trace)
      (shellUpdateData cfg file)
      (fun _ t trace => Standing psk asked (calls ++ [(.otaBegin, announcement file.content)] ++
        dataCalls cfg file.content (chunkCount cfg file.content.length)) t trace)
      (fun _ t trace => Standing psk asked calls t trace) :=
    (shellUpdateChunks_cautious hbegun hkey hcalls _ 0 0 _ (.start cfg _)
      (by omega)).consequence (fun _ _ h => by simpa [dataCalls] using h)
      (fun _ _ _ h => h) fun _ _ _ h => h
  refine Task.Spec.bind hbegin fun _ => Task.Spec.bind hdata fun _ => ?_
  refine Task.Spec.bind (client_cautious ((runCommand_performed hkey rfl hend _).consequence
    (fun _ _ h => h) (fun _ _ _ h => h) fun _ _ _ h =>
      h.of_prefix (hbegun.trans (List.prefix_append _ _)))) fun _ => ?_
  exact Task.Spec.pure fun _ _ h => by simpa [ShellOutcome.calls, updateCalls] using h

theorem shellLine_cautious (command : String) (arguments : List String)
    (hasked : ∀ call ∈ lineCalls cfg files (command :: arguments), asked call.1 call.2) :
    Cautious E psk asked (fun t trace => Standing psk asked calls t trace)
      (shellLine cfg files command arguments)
      (fun outcome t trace => Standing psk asked (calls ++ outcome.calls cfg) t trace)
      (fun _ t trace => Standing psk asked calls t trace) := by
  have hone : ∀ {c : Command} (x : Context) (o : ShellOutcome β), c.isProtected = true →
      asked c [] → o.calls cfg = [(c, [])] →
      Cautious E psk asked (fun t trace => Standing psk asked calls t trace)
        (do ShellTask.client (runCommand cfg c [] x); return o : ShellTask β (ShellOutcome β))
        (fun outcome t trace => Standing psk asked (calls ++ outcome.calls cfg) t trace)
        (fun _ t trace => Standing psk asked calls t trace) := fun x o hc ha ho =>
    Task.Spec.bind (client_cautious (runCommand_performed hkey hc ha x)) fun _ =>
      Task.Spec.pure fun _ _ h => by simpa only [ho] using h
  have hquiet : ∀ (o : ShellOutcome β) {t : HostState β} {trace : List (Spoken (Packet β))},
      o.calls cfg = [] → Standing psk asked calls t trace →
        Standing psk asked (calls ++ o.calls cfg) t trace := by
    intro o t trace ho h
    rwa [ho, List.append_nil]
  refine Task.Spec.handle (W := fun _ t s => Standing psk asked calls t s.2) ?_ fun e =>
    Task.Spec.ite (fun _ => Task.Spec.pure fun _ _ h => hquiet _ rfl h)
      fun _ => Task.Spec.raise fun _ _ h => h
  unfold shellCommand
  unfold lineCalls at hasked
  split
  next hverb =>
    refine Task.Spec.bind (client_cautious (runCommand_cautious hkey (.inr ⟨.inl rfl, rfl⟩) _))
      fun _ => Task.Spec.pure fun _ _ h => ?_
    exact h
  next hverb =>
    exact Task.Spec.bind (runInfo_cautious hkey) fun _ =>
      Task.Spec.pure fun _ _ h => hquiet _ rfl h
  next hverb => exact hone _ _ rfl (hasked (.reboot, []) (by simp [hverb])) rfl
  next hverb => exact hone _ _ rfl (hasked (.rollback, []) (by simp [hverb])) rfl
  next hverb =>
    refine shellUpdate_cautious hkey arguments ?_
    rintro path file rfl hfile
    simpa [hverb, hfile] using hasked
  next hverb => exact hone _ _ rfl (hasked (.otaEnd, []) (by simp [hverb])) rfl
  next hverb => exact hone _ _ rfl (hasked (.otaAbort, []) (by simp [hverb])) rfl
  · exact Task.Spec.pure fun _ _ h => hquiet _ rfl h
  · exact Task.Spec.pure fun _ _ h => hquiet _ rfl h

end Lines
end Commands

/-! ## The loop -/

section Loop
variable {σ : Type} {E : Env Ask (Answer β) (Packet β) σ} {cfg : HostConfig β} {psk : List β}

theorem AskedFor.more {typed : List (Line β)} {c : Command} {payload : List β}
    (h : AskedFor cfg typed c payload) (line : Line β) :
    AskedFor cfg (typed ++ [line]) c payload := by
  obtain ⟨line', hline, h⟩ := h
  exact ⟨line', List.mem_append_left _ hline, h⟩

theorem Permitted.mono {asked asked' : Command → List β → Prop}
    {before : List (Spoken (Packet β))} {m : Packet β} (h : Permitted psk asked before m)
    (hmono : ∀ c payload, asked c payload → asked' c payload) : Permitted psk asked' before m := by
  cases h with
  | query hc => exact .query hc
  | challenge hl => exact .challenge hl
  | proof hv => exact .proof hv
  | guarded hc ha hv => exact .guarded hc (hmono _ _ ha) hv

/-- The calls that the shell has reported. -/
def Shell.calls (cfg : HostConfig β) (sh : Shell β) : List (Command × List β) :=
  sh.printed.flatMap fun o => o.calls cfg

/-- What holds of the shell at every moment. -/
structure Closed (E : Env Ask (Answer β) (Packet β) σ) (cfg : HostConfig β) (psk : List β)
    (c : Shell β × σ × List (Spoken (Packet β))) : Prop where
  lawful : Lawful (Permitted psk (AskedFor cfg c.1.typed)) c.2.2
  performed : Performed psk (c.1.calls cfg) c.2.2
  prompt : ∀ t, c.1.place = .prompt t →
    Standing psk (AskedFor cfg c.1.typed) (c.1.calls cfg) t c.2.2
  /-- The command has been started with that. -/
  command : ∀ p, c.1.place = .command p → ∃ line ∈ c.1.typed, ∃ command arguments t₀ s₀ trace₀,
    line.words = some (command :: arguments) ∧
    Standing psk (AskedFor cfg c.1.typed) (c.1.calls cfg) t₀ trace₀ ∧
    E.traced.Reaches (shellLine cfg line.files command arguments t₀, s₀, trace₀) (p, c.2)

/-- What holds while a command is carried out, and at its end. -/
theorem closed_command (hkey : cfg.authKey = some psk) {typed : List (Line β)}
    {calls : List (Command × List β)} {line : Line β} (hline : line ∈ typed) {command : String}
    {arguments : List String} (hwords : line.words = some (command :: arguments))
    {t₀ : HostState β} {s₀ s : σ} {trace₀ trace : List (Spoken (Packet β))}
    (h₀ : Standing psk (AskedFor cfg typed) calls t₀ trace₀)
    {p : Prog Ask (Answer β) (Packet β) (Except ShellError (ShellOutcome β) × HostState β)}
    (hr : E.traced.Reaches (shellLine cfg line.files command arguments t₀, s₀, trace₀)
      (p, s, trace)) :
    Lawful (Permitted psk (AskedFor cfg typed)) trace ∧ Performed psk calls trace ∧
      ∀ o t, p = .ret (.ok o, t) →
        Standing psk (AskedFor cfg typed) (calls ++ o.calls cfg) t trace := by
  have hspec := @shellLine_cautious β _ σ E psk (AskedFor cfg typed) calls cfg hkey line.files
    command arguments fun call hcall => ⟨line, hline, _, hwords, hcall⟩
  have hstable := E.stable_traced
  obtain ⟨more, hmore⟩ := hr.extends
  refine ⟨?_, ?_, ?_⟩
  · exact hspec.reaches_inv (fun _ _ => hstable _) (fun _ _ => hstable _) (fun _ _ _ h => h.lawful)
      (fun _ _ _ h => h.lawful) h₀ hr
  · obtain rfl : trace = trace₀ ++ more := hmore
    exact h₀.performed.append more
  · rintro o t rfl
    exact hspec.reaches (fun _ _ => hstable _) (fun _ _ => hstable _) h₀ hr

/-- **One step** of the shell. -/
theorem Shell.Step.closed (hkey : cfg.authKey = some psk)
    {c c' : Shell β × σ × List (Spoken (Packet β))} (h : Shell.Step cfg E.traced c c')
    (hi : Closed E cfg psk c) : Closed E cfg psk c' := by
  obtain ⟨hlawful, hperformed, hprompt, hcommand⟩ := hi
  cases h with
  | @wait typed printed t s s' h =>
    obtain ⟨s, trace⟩ := s
    obtain ⟨s', trace'⟩ := s'
    obtain rfl : trace' = trace := h.2
    exact ⟨hlawful, hperformed, hprompt, nofun⟩
  | eof => exact ⟨hlawful, hperformed, nofun, nofun⟩
  | @line typed printed t s line =>
    have hmore := fun before m (h : Permitted psk (AskedFor cfg typed) before m) =>
      h.mono fun _ _ ha => ha.more line
    have hstanding := hprompt t rfl
    have hnext : Standing psk (AskedFor cfg (typed ++ [line]))
        (Shell.calls cfg ⟨typed, printed, .prompt t⟩) t s.2 :=
      ⟨hstanding.lawful.mono hmore, hstanding.performed, hstanding.keyed⟩
    refine ⟨hlawful.mono hmore, hperformed, fun t' hplace => ?_, fun p hplace => ?_⟩
    · obtain rfl := enter_eq_prompt hplace
      exact hnext
    · obtain ⟨command, arguments, hwords, -, rfl⟩ := enter_eq_command hplace
      exact ⟨line, List.mem_append_right _ List.mem_cons_self, command, arguments, t, s.1, s.2,
        hwords, hnext, .refl⟩
  | work hstep =>
    obtain ⟨line, hline, command, arguments, t₀, s₀, trace₀, hwords, h₀, hr⟩ := hcommand _ rfl
    have hr' := hr.tail hstep
    obtain ⟨hlawful', hperformed', -⟩ := closed_command hkey hline hwords h₀ hr'
    refine ⟨hlawful', hperformed', nofun, ?_⟩
    rintro p ⟨⟩
    exact ⟨line, hline, command, arguments, t₀, s₀, trace₀, hwords, h₀, hr'⟩
  | @print typed printed o t s =>
    obtain ⟨line, hline, command, arguments, t₀, s₀, trace₀, hwords, h₀, hr⟩ := hcommand _ rfl
    have hdone := (closed_command hkey hline hwords h₀ hr).2.2 o t rfl
    have hcalls : Shell.calls cfg ⟨typed, printed ++ [o], .prompt t⟩ =
        Shell.calls cfg ⟨typed, printed, .command (.ret (.ok o, t))⟩ ++ o.calls cfg := by
      simp [Shell.calls]
    refine ⟨hlawful, hcalls ▸ hdone.performed, ?_, nofun⟩
    rintro t' ⟨⟩
    exact hcalls ▸ hdone
  | escape => exact ⟨hlawful, hperformed, nofun, nofun⟩
  | port => exact ⟨hlawful, hperformed, nofun, nofun⟩

end Loop

/-- **A client with a key fails closed.** Whatever the other side is and does and whatever the
user types, at every moment of the shell, also where an exception ends it: each packet that the
shell has sent was permitted when it was sent, so it challenged, asked a question, or went to
somebody who had proved to know the key since the latest challenge, and then it was for a call
that a line asks for; and the changes of the device that the shell has reported were acknowledged
under the session key, packet by packet. -/
theorem shell_fails_closed {σ : Type} {E : Env Ask (Answer β) (Packet β) σ} {cfg : HostConfig β}
    {psk : List β} (hkey : cfg.authKey = some psk) {n : UInt16} {sh : Shell β} {s s' : σ}
    {trace : List (Spoken (Packet β))}
    (hr : Relation.ReflTransGen (Shell.Step cfg E.traced) (.opened n, s, []) (sh, s', trace)) :
    Lawful (Permitted psk (AskedFor cfg sh.typed)) trace ∧
      Performed psk (sh.printed.flatMap fun o => o.calls cfg) trace := by
  suffices ∀ c, Relation.ReflTransGen (Shell.Step cfg E.traced) (.opened n, s, []) c →
      Closed E cfg psk c from ⟨(this _ hr).lawful, (this _ hr).performed⟩
  intro c hc
  induction hc with
  | refl =>
    refine ⟨lawful_nil, .start, ?_, nofun⟩
    rintro t ⟨⟩
    exact standing_opened n
  | tail _ hstep ih => exact hstep.closed hkey ih

/-! ### An update over a link that loses nothing -/

/-- A directory with one image. -/
def sampleFiles (path : String) : Option (File Octet) :=
  if path = "firmware.bin" then some ⟨sampleImage, fun _ => false⟩ else none

def sampleUpdateLine : Line Octet := ⟨some ["update", "firmware.bin"], sampleFiles⟩

/-- The command is over and reports the update to this image. -/
def reportsUpdate (firmware : List Octet) : Prog Ask (Answer Octet) (Packet Octet)
    (Except ShellError (ShellOutcome Octet) × HostState Octet) → Bool
  | .ret (.ok (.updated f), _) => f == firmware
  | _ => false

theorem of_reportsUpdate {firmware : List Octet} {p : Prog Ask (Answer Octet) (Packet Octet)
    (Except ShellError (ShellOutcome Octet) × HostState Octet)}
    (h : reportsUpdate firmware p = true) : ∃ t, p = .ret (.ok (.updated firmware), t) := by
  unfold reportsUpdate at h
  split at h
  · exact ⟨_, by rw [beq_iff_eq.mp h]⟩
  · cases h

theorem shell_fails_closed_update : ∃ trace,
    Lawful (Permitted (pskOctets 1) (AskedFor sampleHost [sampleUpdateLine])) trace ∧
    Performed (pskOctets 1) (updateCalls sampleHost sampleImage) trace := by
  obtain ⟨⟨p, L⟩, hr, hp⟩ := exists_reaches_of_play (deviceServer false (EspIdf.takes sampleImage))
    (Policy.keyed sampleHost) sampleAnswer
    (.proceed :: roundTrip ++ roundTrip ++ roundTrip ++ roundTrip ++ roundTrip)
    (shellLine sampleHost sampleFiles "update" ["firmware.bin"] (.opened 0),
      .quiet ⟨lockedDevice, []⟩)
    (fun c => reportsUpdate sampleImage c.1) (by decide +kernel)
  obtain ⟨trace, htrace⟩ := hr.traced []
  obtain ⟨t, rfl⟩ := of_reportsUpdate hp
  have hrun := ((Relation.ReflTransGen.single
    (@Shell.Step.line _ _ _ sampleHost _ [] [] _ _ sampleUpdateLine)).trans
    (Shell.reaches_command htrace)).tail .print
  obtain ⟨hlawful, hperformed⟩ := shell_fails_closed rfl hrun
  exact ⟨trace, hlawful, by simpa [ShellOutcome.calls] using hperformed⟩

end OtaLink
