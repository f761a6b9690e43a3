import PicoAll.Fs.ObjectStoreHandle
import PicoAll.Fs.RecordIdUnique
import PicoAll.Fido.OtpBankMap
import PicoAll.Fido.ResidentFrame
import PicoAll.Fido.AuditExport
import PicoAll.Fido.OtpCounter
import PicoAll.Fs.DynamicIndexMap
import PicoAll.Fs.FileMetaMap
import PicoAll.Transport.ApduChain
import PicoAll.Transport.ApduEncoding
import PicoAll.Transport.ApduGetResponse
import PicoAll.Transport.HidIsolation
import PicoAll.Transport.SecureMessagingSession
import PicoAll.Fido.LargeBlobsUpload
import PicoAll.Fido.SignCounter
import PicoAll.Fido.HotpExact
import PicoAll.Hsm.UserAuthSound
import PicoAll.Hsm.SecureLock
import PicoAll.Hsm.KeyDomainShares
import PicoAll.Openpgp.PinRetry
import PicoAll.Otp.RootLaw
import PicoAll.Vault.EnrollmentLaw
import PicoAll.Firmware.SecurityLock
import PicoAll.Piv.ManagementHolder
import PicoAll.Openpgp.SignatureLaw
import PicoAll.Fs.TlvWalk
import PicoAll.Fs.ObjectStoreTxnStream
import PicoAll.Fs.ObjectRecordIdentity
import PicoAll.Vault.KvaultMap
import PicoAll.Fido.ResidentStatusLaw
import PicoAll.Transport.BulkCommand
import PicoAll.Fs.PhyCodec
import PicoAll.Fs.Fci
import PicoAll.Transport.CcidReassembly
import PicoAll.Fido.CredentialEnvelopeLaw
import PicoAll.Fido.GetAssertionLaw
import PicoAll.Fs.FlashRecordsLaw
import PicoAll.Hsm.DeriveKey
import PicoAll.Hsm.CertificateChain
import PicoAll.Fido.ClientPin
import PicoAll.Firmware.Hwrng
