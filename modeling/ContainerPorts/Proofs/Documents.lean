import ContainerPorts.Health
import ContainerPorts.InterfaceRecord
import ContainerPorts.Invocation
import ContainerPorts.Proofs.Json.Fields
import ContainerPorts.Proofs.Net.Notation
import ContainerPorts.Reply

/-!
# Documents are read back

Plugin and daemon send each other documents, and the daemon keeps some in files. Each of
them is read as what it was written for, whatever its members are and whichever of them
are left out. The bytes of a network configuration have one written form only.
-/
namespace ContainerPorts

open Json Json.Decoder

variable {n : ℕ}

/-! ### Parts -/

theorem addressDecoder_reads (x : IpAddress) : addressDecoder.Reads 0 (.string x.text) x :=
  (Reads.string x.text).filterMap x.read?_text

theorem networkDecoder_reads (x : Network) : networkDecoder.Reads 0 (.string x.text) x :=
  (Reads.string x.text).filterMap x.read?_text

namespace Json.Decoder.Fills

variable {ρ : Type} {n : ℕ} {fs : List (Field ρ)} {ms : List (String × Value)} {r r' : ρ}
  {name : String}

theorem string {set : String → ρ → ρ} {s : String} (hempty : set "" r = r)
    (hrest : Fills n fs ms (set s r) r') :
    Fills n (.defaulted name .string set :: fs) (nonemptyString name s ++ ms) r r' := by
  refine present s (fun v hv => ?_) (fun hnone => ?_) hrest
  · split at hv
    · cases hv
    · cases hv
      exact (Reads.string s).mono (Nat.zero_le n)
  · split at hnone
    · rw [‹s = ""›, hempty]
    · cases hnone

theorem strings {set : List String → ρ → ρ} {ss : List String} (hempty : set [] r = r)
    (hrest : Fills (n + 1) fs ms (set ss r) r') :
    Fills (n + 1) (.defaulted name (.list .string) set :: fs) (nonemptyStrings name ss ++ ms) r
      r' := by
  refine present ss (fun v hv => ?_) (fun hnone => ?_) hrest
  · split at hv
    · cases hv
    · cases hv
      exact (Reads.strings ss).mono (Nat.le_add_left 1 n)
  · split at hnone
    · rw [‹ss = []›, hempty]
    · cases hnone

theorem option {α : Type} {dec : Decoder α} {set : Option α → ρ → ρ} {write : α → Value}
    {o : Option α} (hread : ∀ x ∈ o, dec.Reads n (write x) x) (hnull : ∀ x, write x ≠ .null)
    (hnone : set none r = r) (hrest : Fills n fs ms (set o r) r') :
    Fills n (.defaulted name (.option dec) set :: fs) (Value.present name (o.map write) ++ ms) r
      r' := by
  cases o with
  | none => exact .omitted rfl (hnone ▸ hrest)
  | some x => exact .defaulted ((hread x rfl).option (hnull x)) hrest

end Json.Decoder.Fills

/-! ### Documents -/

theorem Invocation.decoder_reads (i : Invocation) : decoder.Reads 1 i.toJson i := by
  have hbytes : bytesDecoder.Reads 0 (.string (String.ofList (Base64.encode i.stdin))) i.stdin :=
    ((Reads.string _).option nofun).filterMap (by simp [Base64.decode?_encode])
  exact Fills.record (by decide) (.defaulted (.string _) (.defaulted (.string _)
    (.defaulted (.string _) (.defaulted (.string _) (.defaulted (.string _)
      (.defaulted (.string _) (.defaulted hbytes (.done _))))))))

theorem Interface.decoder_reads (i : Interface) : decoder.Reads 1 i.toJson i := by
  have hms : i.toJson = .object (("name", .string i.name) ::
      (nonemptyString "mac" i.mac ++ (nonemptyString "sandbox" i.sandbox ++ []))) := by
    rw [toJson, List.append_nil]
  rw [hms]
  exact Fills.record (by decide) (.required (.string _) (.string rfl (.string rfl (.done _))))

theorem IpConfig.decoder_reads {c : IpConfig} (h : ∀ k ∈ c.interface, k < Nat.pow 2 64) :
    decoder.Reads 1 c.toJson c := by
  have hms : c.toJson = .object (Value.present "version" (c.version.map .string) ++
      (Value.present "interface" (c.interface.map .nat) ++ (("address", .string c.address.text) ::
        (Value.present "gateway" (c.gateway.map fun g => .string g.text) ++ [])))) := by
    simp [toJson]
  have hinterface : ∀ k ∈ c.interface,
      (Decoder.natural (Nat.pow 2 64 - 1)).Reads 0 (.nat k) k := fun k hk =>
    .natural (Nat.le_sub_one_of_lt (h k hk)) (by decide)
  rw [hms]
  exact Fills.record (by decide) (.option (fun s _ => .string s) nofun rfl
    (.option hinterface nofun rfl (.required (networkDecoder_reads _)
      (.option (fun g _ => addressDecoder_reads g) nofun rfl (.done _)))))

theorem Route.decoder_reads (r : Route) : decoder.Reads 1 r.toJson r := by
  have hms : r.toJson = .object (("dst", .string r.dst.text) ::
      (Value.present "gw" (r.gw.map fun g => .string g.text) ++ [])) := by
    rw [toJson, List.append_nil]
  rw [hms]
  exact Fills.record (by decide) (.required (networkDecoder_reads _)
    (.option (fun g _ => addressDecoder_reads g) nofun rfl (.done _)))

theorem Dns.decoder_reads (d : Dns) : decoder.Reads 2 d.toJson d := by
  have hms : d.toJson = .object (nonemptyStrings "nameservers" d.nameservers ++
      (Value.present "domain" (d.domain.map .string) ++ (nonemptyStrings "search" d.search ++
        (nonemptyStrings "options" d.options ++ [])))) := by
    simp [toJson]
  have hdomain : ∀ s ∈ d.domain, Decoder.string.Reads 1 (.string s) s := fun s _ =>
    (Reads.string s).mono (Nat.zero_le 1)
  rw [hms]
  exact Fills.record (by decide) (.strings rfl (.option hdomain nofun rfl
    (.strings rfl (.strings rfl (.done _)))))

/-- Positions of interfaces are numbers of the machine. -/
def AddReply.HasPositions (r : AddReply) : Prop := ∀ c ∈ r.ips, ∀ k ∈ c.interface, k < Nat.pow 2 64

theorem AddReply.decoder_reads {r : AddReply} (h : r.HasPositions) :
    decoder.Reads 3 r.toJson r :=
  Fills.record (by decide) (.required ((Reads.string _).mono (Nat.zero_le 2))
    (.defaulted (.list fun i _ => i.decoder_reads)
      (.defaulted (.list fun c hc => IpConfig.decoder_reads (h c hc))
        (.defaulted (.list fun r _ => r.decoder_reads)
          (.defaulted r.dns.decoder_reads (.done _))))))

theorem ErrorReply.decoder_reads {e : ErrorReply} (h : e.code < Nat.pow 2 32) :
    decoder.Reads 1 e.toJson e := by
  have hms : e.toJson = .object (("cniVersion", .string e.cniVersion) :: ("code", .nat e.code) ::
      ("msg", .string e.msg) :: (nonemptyString "details" e.details ++ [])) := by
    simp [toJson]
  have hcode : (Decoder.natural (Nat.pow 2 32 - 1)).Reads 0 (.nat e.code) e.code :=
    .natural (Nat.le_sub_one_of_lt h) (by decide)
  rw [hms]
  exact Fills.record (by decide) (.required (.string _) (.required hcode
    (.required (.string _) (.string rfl (.done _)))))

theorem VersionReply.decoder_reads (v : VersionReply) : decoder.Reads 2 v.toJson v :=
  Fills.record (by decide) (.required ((Reads.string _).mono (Nat.zero_le 1))
    (.required (.strings _) (.done _)))

theorem InterfaceRecord.decoder_reads (r : InterfaceRecord) : decoder.Reads 1 r.toJson r :=
  Fills.record (by decide) (.required (.string _) (.required (.string _) (.required (.string _)
    (.required (.string _) (.defaulted (.string _) (.defaulted (.string _) (.done _)))))))

theorem CheckResult.decoder_reads (c : CheckResult) : decoder.Reads 1 c.toJson c :=
  Fills.record (by decide) (.required (.string _) (.required (.bool _)
    (.defaulted (.string _) (.done _))))

theorem HealthReport.decoder_reads (r : HealthReport) : decoder.Reads 3 r.toJson r :=
  Fills.record (by decide) (.required ((Reads.bool _).mono (Nat.zero_le 2))
    (.required (.list fun c _ => c.decoder_reads) (.done _)))

/-! ### The bytes of a network configuration -/

theorem Invocation.eq_encode_of_bytesDecoder {d : ℕ} {s : String} {b : Bytes}
    (h : bytesDecoder d (.string (.ok s)) = .ok b) : s = String.ofList (Base64.encode b) := by
  have hdecode : Base64.decode? s.toList = some b := by
    simp only [bytesDecoder, Decoder.filterMap, Decoder.option, Decoder.string, Except.map, bind,
      Except.bind] at h
    split at h
    · cases h
      assumption
    · cases h
  rw [← Base64.decode?_eq_some_iff.mp hdecode, String.ofList_toList]

theorem Invocation.shows_stdin : Shows decoder {} 6 "stdindata" bytesDecoder stdin := by
  refine ⟨_, rfl, by decide, ⟨_, _, rfl, rfl, rfl, fun _ _ => rfl⟩, ?_⟩
  simp +contextual [Field.defaulted, map_eq_ok_iff]

theorem Invocation.eq_encode_of_ofBytes {text : Bytes} {i : Invocation} {s : String}
    (h : decoder.ofBytes text = .ok i)
    (hs : Node.Gives "stdindata" 6 (.string (.ok s)) (Document.ofBytes text).root) :
    s = String.ofList (Base64.encode i.stdin) :=
  eq_encode_of_bytesDecoder (shows_stdin.eq_of_gives (d := 127) (read_root h) hs)

/-! ### All documents -/

/-- Every document is read back as what it was written for, and the text of a network
configuration in any accepted invocation is the one written form of its bytes. -/
theorem documents_readBack (i : Invocation) {r : AddReply} (hr : r.HasPositions) {e : ErrorReply}
    (he : e.code < Nat.pow 2 32) (v : VersionReply) (f : InterfaceRecord) (h : HealthReport) :
    Invocation.decoder.ReadsBack i.toJson i ∧
    AddReply.decoder.ReadsBack r.toJson r ∧
    ErrorReply.decoder.ReadsBack e.toJson e ∧
    VersionReply.decoder.ReadsBack v.toJson v ∧
    InterfaceRecord.decoder.ReadsBack f.toJson f ∧
    HealthReport.decoder.ReadsBack h.toJson h ∧
    ∀ text j s, Invocation.decoder.ofBytes text = .ok j →
      Node.Gives "stdindata" 6 (.string (.ok s)) (Document.ofBytes text).root →
        s = String.ofList (Base64.encode j.stdin) :=
  ⟨i.decoder_reads.readsBack (by decide), (AddReply.decoder_reads hr).readsBack (by decide),
    (ErrorReply.decoder_reads he).readsBack (by decide), v.decoder_reads.readsBack (by decide),
    f.decoder_reads.readsBack (by decide), h.decoder_reads.readsBack (by decide),
    fun _ _ _ => Invocation.eq_encode_of_ofBytes⟩

/-- An address that shows another one, an address with a gap, and an error without details. -/
theorem documents_readBack_mapped :
    let r : AddReply := {
      cniVersion := "1.0.0"
      ips := [
        { interface := some 0
          address := ⟨.v6 ⟨[0, 0, 0, 0, 0, 0xFFFF, 0x0A00, 1], rfl⟩, 128, by decide⟩ },
        { address := ⟨.v6 ⟨[0x2001, 0xDB8, 0, 0, 1, 0, 0, 0], rfl⟩, 64, by decide⟩
          gateway := some (.v4 ⟨10, 0, 0, 254⟩) }] }
    let e := ErrorReply.internal "failed to set up the port" ""
    r.HasPositions ∧ e.code < Nat.pow 2 32 ∧
    r.ips.map (fun c => c.address.text) = ["::ffff:10.0.0.1/128", "2001:db8:0:0:1::/64"] ∧
    AddReply.decoder.ReadsBack r.toJson r ∧ ErrorReply.decoder.ReadsBack e.toJson e := by
  intro r e
  have hr : r.HasPositions := by
    refine List.forall_mem_cons.mpr ⟨fun k hk => ?_, List.forall_mem_cons.mpr ⟨nofun, nofun⟩⟩
    cases hk
    decide
  have he : e.code < Nat.pow 2 32 := by decide
  have hall := documents_readBack {} hr he {} {} {}
  exact ⟨hr, he, by decide, hall.2.1, hall.2.2.1⟩

end ContainerPorts
