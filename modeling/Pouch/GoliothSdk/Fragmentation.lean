import Pouch.GoliothSdk.CborDecoder
import Pouch.GoliothSdk.ManifestPieces
import Pouch.GoliothSdk.OtaOffsets
import Pouch.GoliothSdk.SettingsPieces

set_option autoImplicit false

namespace Pouch

-- `hex2bin` of Zephyr, for the hashes.
def hexDigit (char : UInt8) : Option UInt8 :=
  if 0x30 ≤ char ∧ char ≤ 0x39 then some (char - 0x30)
  else if 0x61 ≤ char ∧ char ≤ 0x66 then some (char - 0x61 + 10)
  else if 0x41 ≤ char ∧ char ≤ 0x46 then some (char - 0x41 + 10)
  else none

def hexBytes : List UInt8 → Option (List UInt8)
  | [] => some []
  | [_] => none
  | high :: low :: rest =>
    match hexDigit high, hexDigit low, hexBytes rest with
    | some high, some low, some bytes => some ((high * 16 + low) :: bytes)
    | _, _, _ => none

def hexHash (digits : List UInt8) : Option (Bytes 32) :=
  match hexBytes digits with
  | none => none
  | some bytes => if whole : bytes.length = 32 then some ⟨bytes, whole⟩ else none

/-- Documents have the same effect in pieces as in one entry if and only if the pieces do not divide them. No
document is shorter than 20 or 7 bytes. -/
theorem documents_independent_iff (cfg : OtaConfig) (registry : List RegisteredComponent) (zcbor : Zcbor)
    (hex2bin : List UInt8 → Option (Bytes 32)) (handlers : List SettingsHandler) (lawful : zcbor.Lawful)
    (sizes : List Nat) :
    (SettingsIndependent zcbor handlers sizes ↔ Undivided sizes ∨ totalSize sizes < 20) ∧
      (ManifestIndependent cfg registry hex2bin zcbor sizes ↔ Undivided sizes ∨ totalSize sizes < 7) := by
  constructor
  · exact settings_independent handlers lawful sizes
  · exact manifest_independent cfg registry hex2bin lawful sizes

theorem halves_not_independent :
    cborDecoder.Lawful ∧ SettingsIndependent cborDecoder [] [0, 20, 0] ∧
      ¬ ManifestIndependent sampleOtaConfig [] hexHash cborDecoder [10, 10] := by
  have one := documents_independent_iff sampleOtaConfig [] cborDecoder hexHash [] cborDecoder_lawful [0, 20, 0]
  have two := documents_independent_iff sampleOtaConfig [] cborDecoder hexHash [] cborDecoder_lawful [10, 10]
  refine ⟨cborDecoder_lawful, one.1.mpr (.inl (by decide)), ?_⟩
  rw [two.2]
  decide

-- "LED".
def ledLabel : List UInt8 := [0x4c, 0x45, 0x44]

def ledHandler : SettingsHandler := ⟨⟨ledLabel, by simp [ledLabel]⟩, .bool⟩

def ledPairs : List (List UInt8 × List UInt8) :=
  [(settingsLabel, [0xa1] ++ textItem ledLabel ++ [0xf5]), (versionLabel, Cbor.encodeHead 0 5)]

/-- Cut inside of the name of its setting, version 5 of the settings goes unnoticed. -/
theorem divided_settings_lost :
    SettingsDocument (mapDocument ledPairs) ∧
      settingsDownlink cborDecoder [ledHandler] ⟨-1, []⟩ (entryOf (mapDocument ledPairs)) = ⟨5, [⟨0, .bool true⟩]⟩ ∧
      (cutAt (entryOf (mapDocument ledPairs)) 0 [12, 13]).foldl (settingsDownlink cborDecoder [ledHandler]) ⟨-1, []⟩ =
        ⟨-1, []⟩ := by
  refine ⟨⟨ledPairs, rfl, ?_, ⟨_, List.mem_cons_self⟩, 5, by decide, .inl ?_⟩, ?_, ?_⟩
  · decide
  · decide
  · decide +kernel
  · decide +kernel

end Pouch
