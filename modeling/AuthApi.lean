import AuthApi.BulkRevocation
import AuthApi.ChallengeBound
import AuthApi.SetupRace
import AuthApi.ResetWindow
import AuthApi.PrimaryMethod
import AuthApi.SingleUse
import AuthApi.MailedCodes
import AuthApi.LoginBudget
import AuthApi.LockoutRace
import AuthApi.ActivationPassword
import AuthApi.UsernameAnswers
import AuthApi.LastAdministrator
import AuthApi.AdministratorFactor
import AuthApi.RoleDelegation
import AuthApi.UserCodes
import AuthApi.ConsentRequest
import AuthApi.IdentityConsent
import AuthApi.ClientDeletion
import AuthApi.SessionLimit
import AuthApi.WebhookEndpoints
import AuthApi.OutboxOrder
import AuthApi.RateLimit
import AuthApi.TokenKinds
import AuthApi.KeyFetches
import AuthApi.OauthParameters
import AuthApi.UserSearch
import AuthApi.Crypto
import AuthApi.Service
import AuthApi.SessionLifetime
import AuthApi.ReauthBudget
