import AuthProvValidator.Properties.Verdict
import AuthProvValidator.Properties.Conservation
import AuthProvValidator.Properties.Independence
import AuthProvValidator.Properties.LegacyAgreement
import AuthProvValidator.Properties.UpdateRule
import AuthProvValidator.Properties.StoredKinds
import AuthProvValidator.Properties.MissingData
import AuthProvValidator.Properties.ParserSafety
import AuthProvValidator.Properties.MemberOrder
import AuthProvValidator.Properties.AnsweredData
import AuthProvValidator.Properties.RoundTrip
import AuthProvValidator.Properties.Companions
import AuthProvValidator.Properties.Deletions
import AuthProvValidator.Properties.DynamicData
import AuthProvValidator.Properties.OnlyAdds
import AuthProvValidator.Properties.CreationRule
import AuthProvValidator.Properties.OwnMembers
import AuthProvValidator.Properties.SameValues
import AuthProvValidator.Properties.SqnScheme
import AuthProvValidator.Properties.PathParts
import AuthProvValidator.Properties.AuCMask
import AuthProvValidator.Properties.StaticDataRead
import AuthProvValidator.Properties.Anonymity
import AuthProvValidator.Properties.OctetOrder
import AuthProvValidator.Properties.HexConversions
import AuthProvValidator.Properties.QueueHistory
import AuthProvValidator.Properties.QueueProgress
import AuthProvValidator.Properties.Isolation
import AuthProvValidator.Properties.Attribution
import AuthProvValidator.Properties.Batching
import AuthProvValidator.Properties.Resubmission
import AuthProvValidator.Properties.StoredResources
import AuthProvValidator.Properties.AnswerReading
import AuthProvValidator.Properties.SchemaReplies
import AuthProvValidator.Properties.AnsweredOnce
import AuthProvValidator.Properties.Totality
import AuthProvValidator.Properties.DynamicDataRead
import AuthProvValidator.Properties.ParseErrors
import AuthProvValidator.Properties.BatchedDocuments
