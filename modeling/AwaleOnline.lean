import AwaleOnline.GuardedRunProofs
import AwaleOnline.SlotArrayProofs
import AwaleOnline.CStringProofs
import AwaleOnline.ByteBufferProofs
import AwaleOnline.AwaleGameProofs
import AwaleOnline.AwaleConservationProofs
import AwaleOnline.AwaleProtocolProofs
import AwaleOnline.AwaleServerProofs
import AwaleOnline.AwaleEffectProofs
import AwaleOnline.AwaleBoundsProofs
import AwaleOnline.AwaleAuthorisationProofs
import AwaleOnline.AwaleRosterProofs
import AwaleOnline.AwaleMembershipProofs
import AwaleOnline.AwaleDescriptorProofs
import AwaleOnline.AwaleDeadStorageProofs
import AwaleOnline.AwaleClientProofs
import AwaleOnline.AwaleSystemProofs
import AwaleOnline.AwaleAcknowledgementProofs
import AwaleOnline.AwaleTidyProofs
import AwaleOnline.AwaleDialogueProofs
import AwaleOnline.AwaleStandingProofs
import AwaleOnline.AwaleSendingProofs
import AwaleOnline.AwaleServiceProofs
import AwaleOnline.AwaleTurnProofs
import AwaleOnline.AwaleSeatsProofs
import AwaleOnline.AwaleNamesProofs
import AwaleOnline.AwaleReconnectProofs
import AwaleOnline.AwaleLifecycleProofs
import AwaleOnline.AwaleIdentityProofs
import AwaleOnline.AwaleCodecProofs
import AwaleOnline.AwaleStreamProofs
import AwaleOnline.AwaleIsolationProofs
import AwaleOnline.AwaleReleaseProofs
import AwaleOnline.AwaleChatProofs
import AwaleOnline.AwaleViewProofs
import AwaleOnline.RingSowingProofs
import AwaleOnline.AwaleSowingProofs
import AwaleOnline.DownwardRunProofs
import AwaleOnline.AwaleCaptureProofs
import AwaleOnline.AwaleSymmetryProofs
import AwaleOnline.AwaleVerdictProofs
import AwaleOnline.AwaleStarvationProofs
import AwaleOnline.AwaleBoardAccessProofs
import AwaleOnline.AwaleRejectionProofs
import AwaleOnline.AwaleClosingProofs
import AwaleOnline.AwaleWatchersProofs
import AwaleOnline.AwaleBiographyProofs
import AwaleOnline.AwaleTypingProofs
import AwaleOnline.AwaleReceivingProofs
import AwaleOnline.AwaleFramesProofs
import AwaleOnline.AwaleKeyboardProofs
import AwaleOnline.AwalePictureProofs
import AwaleOnline.AwaleRoomCodeProofs
import AwaleOnline.AwaleDisplayProofs
import AwaleOnline.AwaleLoopProofs
import AwaleOnline.AwaleHonestMatchProofs
import AwaleOnline.AwaleWireProofs
import AwaleOnline.AwaleLimitsProofs
import AwaleOnline.AwaleTerminalProofs
import AwaleOnline.AwaleProgramsProofs
